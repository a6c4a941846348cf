import Mathlib.Logic.Relation
import Mathlib.Order.WellFounded
import NativeLink.Context
import NativeLink.Proofs.Session.Course

/-!
# Pursuing dependencies

A resolver may need other names before it decides on one.  What it needs is a list of
names with signatures, its dependencies, and it asks the same cache for them in order.
The first that fails ends the work with that error.  `Plan.Pursues` says that a plan
does so; what the plan tells, looks up and does to the world on the way is left open,
and so is its decision, which may be another one each time.

Dependencies have dependencies.  If they are well-founded, a run of such a plan always
ends (`run_pursued`), and its visits show where it went (`Calm`, `Trouble`): all names
it visited are bound now, except those on the way from the first name it asked for in
vain to the name that failed of itself (`FailsAt`).

The induction is on the name, along the dependencies.  What carries it is that no name
at or below one that is asked for is being resolved already (`Clear`): a name that is
being resolved needs the one that is asked for, and nothing needs itself.
-/

namespace NativeLink

variable {σ : Type}

/-- The plans that request `dependencies` in order, through `resolver`, and then decide. -/
inductive Plan.Pursues (resolver : Resolver σ) : List (String × String) → Plan σ → Prop where
  | decide (result : Except ResolveError (Callable σ)) : Pursues resolver [] (.answer result)
  | tell {dependencies : List (String × String)} {event : Event} {next : Plan σ}
    (rest : Pursues resolver dependencies next) : Pursues resolver dependencies (.tell event next)
  | step {dependencies : List (String × String)} {change : σ → σ} {next : σ → Plan σ}
    (rest : ∀ world, Pursues resolver dependencies (next world)) :
    Pursues resolver dependencies (.step change next)
  | look {dependencies : List (String × String)} {name : String}
    {next : Option (Binding σ) → Plan σ}
    (rest : ∀ found, Pursues resolver dependencies (next found)) :
    Pursues resolver dependencies (.look name next)
  | request {dependencies : List (String × String)} {name text : String}
    {next : Answer σ → Plan σ} (failed : ∀ error, next (.error error) = .answer (.error error))
    (rest : ∀ binding, Pursues resolver dependencies (next (.ok binding))) :
    Pursues resolver ((name, text) :: dependencies) (.request name text (resolver name) next)

/-- A resolver that requests the dependencies of each name before it decides on it. -/
def Resolver.Follows (resolver : Resolver σ) (dependencies : String → List (String × String)) :
    Prop :=
  ∀ name signature, Plan.Pursues resolver (dependencies name) (resolver name signature)

namespace Dependencies

/-- The first name is a dependency of the second. -/
def Needs (dependencies : String → List (String × String)) (dependency name : String) : Prop :=
  ∃ text, (dependency, text) ∈ dependencies name

section

variable (dependencies : String → List (String × String))

/-- Bound names have their dependencies bound. -/
def Closed (t : Table σ) : Prop :=
  ∀ name, t.contains name = true → ∀ d ∈ dependencies name, t.contains d.1 = true

/-- No name at or below `name` is being resolved. -/
def Clear (t : Table σ) (name : String) : Prop :=
  ∀ other, Relation.ReflTransGen (Needs dependencies) other name → t.cellOf other ≠ .busy

/-- The way from a name that was asked for in vain to the name that failed of itself.  Each name
on it is followed by the first of its dependencies that is not bound.  The last one was asked for
with a text that is no signature, or all its dependencies are bound and its resolver decided
against it. -/
inductive FailsAt (t : Table σ) (error : ResolveError) : String → String → List String → Prop where
  | misread {name text : String} (parsed : Signature.parse text = .error error) :
    FailsAt t error name text [name]
  | decided {name text : String} {signature : Signature}
    (parsed : Signature.parse text = .ok signature)
    (met : ∀ d ∈ dependencies name, t.contains d.1 = true) : FailsAt t error name text [name]
  | through {name text dependency wanted : String} {signature : Signature}
    {before later : List (String × String)} {path : List String}
    (parsed : Signature.parse text = .ok signature)
    (split : dependencies name = before ++ (dependency, wanted) :: later)
    (met : ∀ d ∈ before, t.contains d.1 = true)
    (rest : FailsAt t error dependency wanted path) : FailsAt t error name text (name :: path)

end

/-- A run in which nothing failed: what it visited is bound. -/
structure Calm (t : Table σ) (visits : List Visit) : Prop where
  bound : ∀ v ∈ visits, t.contains v.name = true
  failures : visits.filterMap Visit.failure? = []

/-- A run that failed along a path.  What it visited is bound, the path apart, and the failures
are those of the names on the path, the last name failing first. -/
structure Trouble (t : Table σ) (error : ResolveError) (path : List String)
    (visits : List Visit) : Prop where
  unbound : ∀ name, name ∈ path ↔ (∃ v ∈ visits, v.name = name) ∧ t.contains name = false
  failures : visits.filterMap Visit.failure? = path.reverse.map (·, error)

section

variable {dependencies : String → List (String × String)} {t u : Table σ}
  {error : ResolveError} {path : List String}

theorem FailsAt.mono (h : ∀ name, t.contains name = true → u.contains name = true)
    {name text : String} (hf : FailsAt dependencies t error name text path) :
    FailsAt dependencies u error name text path := by
  induction hf with
  | misread parsed => exact .misread parsed
  | decided parsed met => exact .decided parsed fun d hd => h _ (met d hd)
  | through parsed split met _ ih => exact .through parsed split (fun d hd => h _ (met d hd)) ih

theorem Calm.nil : Calm t [] := ⟨by simp, rfl⟩

theorem Calm.append {first second : List Visit} (h : Calm t first) (k : Calm t second) :
    Calm t (first ++ second) := by
  refine ⟨List.forall_mem_append.mpr ⟨h.bound, k.bound⟩, ?_⟩
  rw [List.filterMap_append, h.failures, k.failures, List.nil_append]

theorem Calm.mono (h : ∀ name, t.contains name = true → u.contains name = true)
    {visits : List Visit} (hc : Calm t visits) : Calm u visits :=
  ⟨fun v hv => h _ (hc.bound v hv), hc.failures⟩

theorem Calm.trouble {visits : List Visit} (h : Calm t visits) (error : ResolveError) :
    Trouble t error [] visits := by
  refine ⟨fun name => ⟨fun hn => absurd hn List.not_mem_nil, ?_⟩, h.failures⟩
  rintro ⟨⟨v, hv, rfl⟩, hfalse⟩
  rw [h.bound v hv] at hfalse
  cases hfalse

/-- A run in which nothing failed may come first. -/
theorem Trouble.of_calm {first second : List Visit} (h : Calm t first)
    (k : Trouble t error path second) : Trouble t error path (first ++ second) := by
  refine ⟨fun name => ?_, ?_⟩
  · rw [k.unbound]
    constructor
    · rintro ⟨⟨v, hv, rfl⟩, hfalse⟩
      exact ⟨⟨v, List.mem_append_right _ hv, rfl⟩, hfalse⟩
    · rintro ⟨⟨v, hv, rfl⟩, hfalse⟩
      rcases List.mem_append.mp hv with hv | hv
      · rw [h.bound v hv] at hfalse
        cases hfalse
      · exact ⟨⟨v, hv, rfl⟩, hfalse⟩
  · rw [List.filterMap_append, h.failures, k.failures, List.nil_append]

/-- **A name that fails stands in front of the path** along which its resolver failed. -/
theorem Trouble.cons {name : String} {inner : List Visit} (h : Trouble t error path inner)
    (hname : t.contains name = false) (signature : Signature) :
    Trouble t error (name :: path)
      (.asked name signature :: (inner ++ [.answered name (.returned (.error error))])) := by
  refine ⟨fun other => ?_, ?_⟩
  · rw [List.mem_cons, h.unbound]
    constructor
    · rintro (rfl | ⟨⟨v, hv, rfl⟩, hfalse⟩)
      · exact ⟨⟨_, List.mem_cons_self, rfl⟩, hname⟩
      · exact ⟨⟨v, List.mem_cons_of_mem _ (List.mem_append_left _ hv), rfl⟩, hfalse⟩
    · rintro ⟨⟨v, hv, rfl⟩, hfalse⟩
      rcases List.mem_cons.mp hv with rfl | hv
      · exact .inl rfl
      · rcases List.mem_append.mp hv with hv | hv
        · exact .inr ⟨⟨v, hv, rfl⟩, hfalse⟩
        · rw [List.mem_singleton.mp hv]
          exact .inl rfl
  · rw [List.filterMap_cons_none (by rfl), List.filterMap_append, h.failures]
    simp [Visit.failure?]

/-- A text that is no signature fails at once. -/
theorem Trouble.misread {name : String} (hname : t.contains name = false) :
    Trouble t error [name] [.misread name error] := by
  refine ⟨fun other => ?_, rfl⟩
  rw [List.mem_singleton]
  constructor
  · rintro rfl
    exact ⟨⟨_, List.mem_cons_self, rfl⟩, hname⟩
  · rintro ⟨⟨v, hv, rfl⟩, -⟩
    rw [List.mem_singleton.mp hv]
    rfl

theorem Trouble.congr {visits : List Visit} (h : ∀ name, u.contains name = t.contains name)
    (ht : Trouble t error path visits) : Trouble u error path visits := by
  refine ⟨fun name => ?_, ht.failures⟩
  rw [h]
  exact ht.unbound name

theorem Closed.congr (h : ∀ name, u.contains name = t.contains name)
    (ht : Closed dependencies t) : Closed dependencies u := by
  intro name hname d hd
  rw [h] at hname ⊢
  exact ht name hname d hd

theorem Clear.below {name dependency : String} (h : Clear dependencies t name)
    (hd : Needs dependencies dependency name) : Clear dependencies t dependency :=
  fun other hother => h other (hother.tail hd)

/-- Names that were not being resolved are not being resolved after a run either. -/
theorem Clear.grows {name : String} (h : Clear dependencies t name) (hg : Table.Grows t u) :
    Clear dependencies u name := fun other hother hb => h other hother (hg.busy hb)

end

/-! ## What a request comes to -/

section

variable (dependencies : String → List (String × String))

/-- What comes of a request for `name`. -/
inductive Settled (t : Table σ) (name text : String) (visits : List Visit) : Answer σ → Prop where
  | bound {binding : Binding σ} (get : t.get? name = some binding) (calm : Calm t visits) :
    Settled t name text visits (.ok binding)
  | failed {error : ResolveError} {path : List String}
    (way : FailsAt dependencies t error name text path) (trouble : Trouble t error path visits) :
    Settled t name text visits (.error error)

/-- What comes of a plan that has still to request `rest`. -/
inductive Pursued (t : Table σ) (rest : List (String × String)) (visits : List Visit) :
    Except ResolveError (Callable σ) → Prop where
  /-- All are bound, and the plan has decided. -/
  | decided {result : Except ResolveError (Callable σ)}
    (met : ∀ d ∈ rest, t.contains d.1 = true) (calm : Calm t visits) :
    Pursued t rest visits result
  /-- One of them has failed. -/
  | stopped {error : ResolveError} {before later : List (String × String)}
    {dependency wanted : String} {path : List String}
    (split : rest = before ++ (dependency, wanted) :: later)
    (met : ∀ d ∈ before, t.contains d.1 = true)
    (way : FailsAt dependencies t error dependency wanted path)
    (trouble : Trouble t error path visits) : Pursued t rest visits (.error error)

/-- Every request for `name` in a session where nothing at or below it is being resolved returns,
and is settled. -/
def Settles (resolver : Resolver σ) (name : String) : Prop :=
  ∀ (text : String) (s : Session σ), s.table.WellFormed → Closed dependencies s.table →
    Clear dependencies s.table name → ∃ answer u,
      Session.resolve resolver name text s = (.returned answer, u) ∧
        Closed dependencies u.table ∧
        Settled dependencies u.table name text (resolver.visits name text s) answer

end

variable {dependencies : String → List (String × String)} {resolver : Resolver σ}

section

variable {s u : Session σ} {name text : String}

theorem resolve_course {outcome : Outcome (Answer σ)} (hs : s.table.WellFormed)
    (h : Session.resolve resolver name text s = (outcome, u)) (ho : outcome ≠ .stuck) :
    Table.Course s.table u.table (resolver.visits name text s) :=
  Session.request_course hs h ho fun signature => (resolver name signature).run_course

end

/-- **A plan that pursues dependencies which settle comes to an end**, with all of them bound or
stopped at the first that fails. -/
theorem run_pursued {rest : List (String × String)} {p : Plan σ}
    (hp : Plan.Pursues resolver rest p) (ih : ∀ d ∈ rest, Settles dependencies resolver d.1)
    {s : Session σ} (hs : s.table.WellFormed) (hclosed : Closed dependencies s.table)
    (hclear : ∀ d ∈ rest, Clear dependencies s.table d.1) :
    ∃ result u, p.run s = (.returned result, u) ∧ Closed dependencies u.table ∧
      Pursued dependencies u.table rest (p.visits s) result := by
  induction hp generalizing s with
  | decide result => exact ⟨result, s, rfl, hclosed, .decided (by simp) .nil⟩
  | @tell rest event next hnext ihnext =>
    exact ihnext ih (s := s.tell [event]) hs hclosed hclear
  | @step rest change next hnext ihnext =>
    exact ihnext s.world ih (s := { s with world := change s.world }) hs hclosed hclear
  | @look rest name next hnext ihnext => exact ihnext (s.table.get? name) ih hs hclosed hclear
  | @request rest name text next hfailed hnext ihnext =>
    obtain ⟨hhead, htail⟩ := List.forall_mem_cons.mp ih
    obtain ⟨hclearhead, hcleartail⟩ := List.forall_mem_cons.mp hclear
    obtain ⟨answer, v, hv, hclosedv, hsettled⟩ := hhead text s hs hclosed hclearhead
    have hgrows := (resolve_course hs hv (by simp)).grows
    unfold Session.resolve at hv
    simp only [Plan.run, Act.andThen, Plan.visits, hv]
    cases hsettled with
    | @bound binding get calm =>
      obtain ⟨result, u, hu, hclosedu, hpursued⟩ := ihnext binding htail hgrows.wellFormed hclosedv
        fun d hd => (hcleartail d hd).grows hgrows
      have hgrowsu := ((next (.ok binding)).run_course hgrows.wellFormed hu (by simp)).grows
      have hbound : u.table.contains name = true :=
        Option.isSome_iff_exists.mpr ⟨binding, hgrowsu.get? get⟩
      have hcalm := calm.mono fun _ => hgrowsu.contains
      refine ⟨result, u, hu, hclosedu, ?_⟩
      cases hpursued with
      | decided met calm =>
        exact .decided (List.forall_mem_cons.mpr ⟨hbound, met⟩) (hcalm.append calm)
      | @stopped error before later dependency wanted path split met way trouble =>
        have hsplit : (name, text) :: rest =
            ((name, text) :: before) ++ (dependency, wanted) :: later := by
          rw [split, List.cons_append]
        exact .stopped hsplit (List.forall_mem_cons.mpr ⟨hbound, met⟩) way
          (trouble.of_calm hcalm)
    | @failed error path way trouble =>
      rw [hfailed]
      have hsplit : (name, text) :: rest = [] ++ (name, text) :: rest := rfl
      refine ⟨.error error, v, rfl, hclosedv, .stopped hsplit (by simp) way ?_⟩
      rw [Plan.visits, List.append_nil]
      exact trouble

/-! ## The induction on names -/

section

variable {t u v : Table σ} {s : Session σ} {name : String}

/-- While a name is being resolved, nothing at or below its dependencies is, because nothing needs
itself. -/
theorem Clear.opened (wf : WellFounded (Needs dependencies)) (hs : s.table.WellFormed)
    (hclear : Clear dependencies s.table name) {d : String} (hd : Needs dependencies d name) :
    Clear dependencies (s.table.opened name) d := by
  intro other hother
  have hne : other ≠ name := by
    rintro rfl
    exact (wf.transGen.irrefl.irrefl other) (Relation.TransGen.tail' hother hd)
  rw [hs.cellOf_opened, if_neg hne]
  exact hclear.below hd other hother

/-- The resolver of a name, begun where its dependencies settle, returns. -/
theorem begun_pursued (hR : resolver.Follows dependencies) (wf : WellFounded (Needs dependencies))
    (ih : ∀ d, Needs dependencies d name → Settles dependencies resolver d)
    (hs : s.table.WellFormed) (hclosed : Closed dependencies s.table)
    (hclear : Clear dependencies s.table name) (hname : s.table.cellOf name = .empty)
    {signature : Signature} {outcome : Outcome (Except ResolveError (Callable σ))} {u : Session σ}
    (run : (resolver name signature).run (s.begun name signature) = (outcome, u)) :
    ∃ result, outcome = .returned result ∧
      Table.Grows (s.table.opened name) u.table ∧ Closed dependencies u.table ∧
        Pursued dependencies u.table (dependencies name)
          ((resolver name signature).visits (s.begun name signature)) result := by
  have hopened : (s.begun name signature).table.WellFormed := hs.opened name
  obtain ⟨result, v, hrun, hclosedv, hpursued⟩ := run_pursued (hR name signature)
    (fun d hd => ih d.1 ⟨d.2, hd⟩) hopened (hclosed.congr (hs.contains_opened hname))
    fun d hd => Clear.opened wf hs hclear ⟨d.2, hd⟩
  rw [run] at hrun
  cases hrun
  exact ⟨result, rfl, (Plan.run_course _ hopened run (by simp)).grows, hclosedv, hpursued⟩

/-- What is bound when the cell of the name has been settled. -/
theorem contains_settled (ht : t.WellFormed) (h : Table.Grows (t.opened name) u)
    {c : Cell σ} (hv : ∀ other, v.cellOf other = (u.setCell (t.acquire name).1 c).cellOf other)
    (other : String) :
    v.contains other = if other = name then c.binding?.isSome else u.contains other := by
  rw [Table.contains_eq_cellOf, hv, h.cellOf_settled ht]
  split
  · rfl
  · rw [Table.contains_eq_cellOf]

/-- A name whose dependencies are bound may become bound. -/
theorem Closed.bind (h : Closed dependencies u)
    (met : ∀ d ∈ dependencies name, u.contains d.1 = true)
    (hv : ∀ other, v.contains other = if other = name then true else u.contains other) :
    Closed dependencies v := by
  have hmono : ∀ other, u.contains other = true → v.contains other = true := by
    intro other hu
    rw [hv, hu, ite_self]
  intro other hother d hd
  by_cases ho : other = name
  · rw [ho] at hd
    exact hmono _ (met d hd)
  · rw [hv, if_neg ho] at hother
    exact hmono _ (h other hother d hd)

/-- The visits of a resolver whose name has been bound. -/
theorem Calm.asked {inner : List Visit} (h : Calm t inner) (hname : t.contains name = true)
    (signature : Signature) :
    Calm t (.asked name signature :: (inner ++ [.answered name (.returned (.ok ()))])) := by
  refine ⟨List.forall_mem_cons.mpr ⟨hname, List.forall_mem_append.mpr ⟨h.bound, ?_⟩⟩, ?_⟩
  · exact List.forall_mem_singleton.mpr hname
  · rw [List.filterMap_cons_none (by rfl), List.filterMap_append, h.failures]
    rfl

end

section

variable {t u v : Table σ} {name text : String} {inner : List Visit} {signature : Signature}
  {error : ResolveError}

theorem settled_of_hit {binding : Binding σ} (hclosed : Closed dependencies t)
    (hname : t.cellOf name = .bound binding) (hv : ∀ other, v.cellOf other = t.cellOf other) :
    Closed dependencies v ∧
      Settled dependencies v name text [.found name] (.ok binding) := by
  have hget : v.get? name = some binding := by
    rw [Table.get?_eq_cellOf, hv, hname]
    rfl
  refine ⟨hclosed.congr fun other => Table.contains_congr (hv other), .bound hget ⟨?_, rfl⟩⟩
  exact List.forall_mem_singleton.mpr (Option.isSome_iff_exists.mpr ⟨binding, hget⟩)

theorem settled_of_refused (hclosed : Closed dependencies t) (hname : t.cellOf name = .empty)
    (hv : ∀ other, v.cellOf other = t.cellOf other) (parsed : Signature.parse text = .error error) :
    Closed dependencies v ∧
      Settled dependencies v name text [.misread name error] (.error error) := by
  have hunbound : v.contains name = false := Table.contains_of_empty ((hv name).trans hname)
  exact ⟨hclosed.congr fun other => Table.contains_congr (hv other),
    .failed (.misread parsed) (.misread hunbound)⟩

/-- A name whose resolver has made a callable is bound with all its dependencies. -/
theorem settled_of_accepted (ht : t.WellFormed) (hgrows : Table.Grows (t.opened name) u)
    (hclosed : Closed dependencies u) {callable : Callable σ}
    (hpursued : Pursued dependencies u (dependencies name) inner (.ok callable))
    {binding : Binding σ}
    (hv : ∀ other, v.cellOf other =
      (u.setCell (t.acquire name).1 (.bound binding)).cellOf other) :
    Closed dependencies v ∧
      Settled dependencies v name text
        (.asked name signature :: (inner ++ [.answered name (.returned (.ok ()))]))
        (.ok binding) := by
  have hcontains := contains_settled ht hgrows hv
  have hget : v.get? name = some binding := by
    rw [Table.get?_eq_cellOf, hv, hgrows.cellOf_settled ht, if_pos rfl]
    rfl
  cases hpursued with
  | decided met calm =>
    refine ⟨hclosed.bind met hcontains, .bound hget ?_⟩
    refine (calm.mono fun other hother => ?_).asked (Option.isSome_iff_exists.mpr ⟨_, hget⟩) _
    rw [hcontains, hother, Cell.binding?, Option.isSome_some, ite_self]

/-- A name whose resolver has answered an error stands on the path of the failure. -/
theorem settled_of_failed (ht : t.WellFormed) (hgrows : Table.Grows (t.opened name) u)
    (hclosed : Closed dependencies u)
    (hpursued : Pursued dependencies u (dependencies name) inner (.error error))
    (hv : ∀ other, v.cellOf other = (u.setCell (t.acquire name).1 .empty).cellOf other)
    (parsed : Signature.parse text = .ok signature) :
    Closed dependencies v ∧
      Settled dependencies v name text
        (.asked name signature :: (inner ++ [.answered name (.returned (.error error))]))
        (.error error) := by
  have hunbound := hgrows.contains_of_opened ht
  have hcontains : ∀ other, v.contains other = u.contains other := by
    intro other
    rw [contains_settled ht hgrows hv]
    split
    · next ho => rw [ho, hunbound]; rfl
    · rfl
  have hmono : ∀ other, u.contains other = true → v.contains other = true :=
    fun other hother => (hcontains other).trans hother
  have hname := (hcontains name).trans hunbound
  refine ⟨hclosed.congr hcontains, ?_⟩
  cases hpursued with
  | decided met calm =>
    exact .failed (.decided parsed fun d hd => hmono _ (met d hd))
      (((calm.trouble error).congr hcontains).cons hname signature)
  | stopped split met way trouble =>
    exact .failed (.through parsed split (fun d hd => hmono _ (met d hd)) (way.mono hmono))
      ((trouble.congr hcontains).cons hname signature)

end

/-- **Every request settles** where dependencies are well-founded. -/
theorem settles (hR : resolver.Follows dependencies) (wf : WellFounded (Needs dependencies))
    (name : String) : Settles dependencies resolver name := by
  induction name using wf.induction with
  | _ name ih => ?_
  intro text s hs hclosed hclear
  rcases hrequest : Session.resolve resolver name text s with ⟨outcome, u⟩
  have hcell := Session.cellOf_eq_cell_acquire s.table name
  unfold Resolver.visits
  cases Session.requested_of_request hrequest with
  | @hit binding cell =>
    rw [Session.visits_of_bound cell]
    exact ⟨_, _, rfl, settled_of_hit hclosed (hcell.trans cell) fun _ =>
      (Table.cellOf_release ..).trans (Table.cellOf_acquire ..)⟩
  | blocked cell => exact absurd (hcell.trans cell) (hclear name .refl)
  | @refused error cell parsed =>
    rw [Session.visits_of_error cell parsed]
    exact ⟨_, _, rfl, settled_of_refused hclosed (hcell.trans cell) (fun other =>
      (Table.cellOf_abandoned (hs.acquire_lt name) name other).trans
        (hs.cellOf_refused (hcell.trans cell) other)) parsed⟩
  | accepted cell parsed run =>
    obtain ⟨result, hresult, hgrows, hclosedv, hpursued⟩ :=
      begun_pursued hR wf ih hs hclosed hclear (hcell.trans cell) run
    cases hresult
    rw [Session.visits_of_run cell parsed run]
    exact ⟨_, _, rfl, settled_of_accepted hs hgrows hclosedv hpursued fun _ =>
      Table.cellOf_release ..⟩
  | failed cell parsed run =>
    obtain ⟨result, hresult, hgrows, hclosedv, hpursued⟩ :=
      begun_pursued hR wf ih hs hclosed hclear (hcell.trans cell) run
    cases hresult
    rw [Session.visits_of_run cell parsed run]
    have hi := hgrows.wellFormed.inside (hgrows.position?_of_opened hs)
    exact ⟨_, _, rfl, settled_of_failed hs hgrows hclosedv hpursued
      (fun _ => Table.cellOf_abandoned hi name _) parsed⟩
  | panicked cell parsed run =>
    obtain ⟨result, hresult, -⟩ := begun_pursued hR wf ih hs hclosed hclear (hcell.trans cell) run
    cases hresult
  | stuck cell parsed run =>
    obtain ⟨result, hresult, -⟩ := begun_pursued hR wf ih hs hclosed hclear (hcell.trans cell) run
    cases hresult

end Dependencies

end NativeLink
