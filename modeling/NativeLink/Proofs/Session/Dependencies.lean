import NativeLink.Proofs.Session.Notes
import NativeLink.Proofs.Session.Pursuit

/-!
# Caches with dependencies

A cache that begins empty serves one request after another, with a resolver that
requests the dependencies of a name before it decides on it.  `Dependencies.Served`
lists the sessions that arise, and what the resolver has noted by then: each time it was
asked, and each answer it gave.  Three things hold of each of them, and
`served_dependencies` says them together.

* With a name all its dependencies are bound, theirs too, and so on down.
* For a bound name one successful answer was noted, by however many ways the name was
  reached, and the resolver was not asked for it again.
* The next request returns.  If it fails, it does so with the error of the first name
  that failed; what it left unbound are the names on the way there, and no others.

The notes stand in the world in which the resolver works, and are made as it runs.  The
next request is therefore stated twice: of the resolver as it is, and of the resolver that
takes notes, which comes to the same and adds those of its visits to the list.

Between two requests the world may change as it likes, since a resolver may be called
in other contexts and routines may be called and registered.  Only the table is the
cache's own.

`Resolver.withDependencies` makes such a resolver out of any that requests nothing, if
the requests reach deep enough for the dependencies there are.
-/

namespace NativeLink

namespace Dependencies

variable {σ : Type}

/-- The sessions of a cache that began empty, each with what the resolver has noted while it served
the requests so far. -/
inductive Served (resolver : Resolver σ) : Session σ → List Visit → Prop where
  | start {s : Session σ} (empty : s.table = .empty) : Served resolver s []
  | resolve {s u : Session σ} {past : List Visit} {outcome : Outcome (Answer σ)}
    {name text : String} (rest : Served resolver s past)
    (call : Session.resolve resolver name text s = (outcome, u)) :
    Served resolver u (past ++ (Session.resolve resolver.noted name text).notes s)
  /-- Something happened elsewhere. -/
  | elsewhere {s u : Session σ} {past : List Visit} (rest : Served resolver s past)
    (table : u.table = s.table) : Served resolver u past

/-- What holds of a table between requests. -/
structure Sound (dependencies : String → List (String × String)) (t : Table σ)
    (past : List Visit) : Prop where
  wellFormed : t.WellFormed
  quiet : ∀ name, t.cellOf name ≠ .busy
  closed : Closed dependencies t
  ledger : Table.Ledger .empty t past

variable {dependencies : String → List (String × String)} {resolver : Resolver σ}

theorem Sound.empty : Sound dependencies (.empty : Table σ) [] where
  wellFormed := Table.wellFormed_empty
  quiet name := by simp [Table.cellOf, Table.position?, Table.empty]
  closed name hname := by simp [Table.contains_eq_cellOf, Table.cellOf, Table.position?,
    Table.empty, Cell.binding?] at hname
  ledger := .idle (fun _ => rfl) (by simp)

theorem sound_of_served (hR : resolver.Follows dependencies)
    (wf : WellFounded (Needs dependencies)) {s : Session σ} {past : List Visit}
    (h : Served resolver s past) : Sound dependencies s.table past := by
  induction h with
  | start empty => exact empty ▸ Sound.empty
  | @resolve s u past outcome name text rest call ih =>
    obtain ⟨answer, v, hv, hclosed, -⟩ := settles hR wf name text s ih.wellFormed ih.closed
      fun other _ => ih.quiet other
    rw [call] at hv
    cases hv
    have hcourse := resolve_course ih.wellFormed call (by simp)
    refine ⟨hcourse.grows.wellFormed, fun other hb => ih.quiet other (hcourse.grows.busy hb),
      hclosed, ?_⟩
    rw [(Session.notes_resolve resolver name text).notes_eq]
    exact ih.ledger.trans hcourse.ledger.noted
  | elsewhere rest table ih => exact table ▸ ih

/-- What is needed directly is bound, so what is needed in the end is. -/
theorem Closed.transGen {t : Table σ} (h : Closed dependencies t) {name dependency : String}
    (hn : Relation.TransGen (Needs dependencies) dependency name)
    (hname : t.contains name = true) : t.contains dependency = true := by
  induction hn using Relation.TransGen.head_induction_on with
  | single hd =>
    obtain ⟨text, hd⟩ := hd
    exact h _ hname _ hd
  | head hd _ ih =>
    obtain ⟨text, hd⟩ := hd
    exact h _ ih _ hd

/-- A bound name has had one successful answer. -/
theorem Sound.once {t : Table σ} {past : List Visit} (h : Sound dependencies t past)
    {name : String} (hname : t.contains name = true) :
    past.countP (Visit.succeeds name) = 1 := by
  have honce := h.ledger.once name
  rwa [Table.tally_eq_zero rfl, Table.tally, hname, Nat.add_zero] at honce

/-- Nobody is asked for a name that was answered with success. -/
theorem Sound.after {t : Table σ} {past : List Visit} (h : Sound dependencies t past)
    {name : String} {before later : List Visit} {v : Visit} (split : past = before ++ v :: later)
    (hv : v.succeeds name = true) : ∀ w ∈ later, w.asks name = false := by
  have hpairs := h.ledger.after
  rw [split, List.pairwise_append, List.pairwise_cons] at hpairs
  exact fun w hw => hpairs.2.1.1 w hw name hv

/-- **A cache that is served through well-founded dependencies** binds a name only with all it
needs, asks for no name again that was answered with success, and answers each further request.
That answer is the binding of the name, or the error of the first name that failed, and then the
names that were visited and are not bound are those on the way to that name.  A resolver that takes
notes comes to the same, and adds to its notes the visits that are its own. -/
theorem served_dependencies (hR : resolver.Follows dependencies)
    (wf : WellFounded (Needs dependencies)) {s : Session σ} {past : List Visit}
    (h : Served resolver s past) :
    (∀ name, s.table.contains name = true →
      (∀ dependency, Relation.TransGen (Needs dependencies) dependency name →
        s.table.contains dependency = true) ∧
      past.countP (Visit.succeeds name) = 1 ∧
      ∀ before v later, past = before ++ v :: later → v.succeeds name = true →
        ∀ w ∈ later, w.asks name = false) ∧
    ∀ name text, ∃ answer u, Session.resolve resolver name text s = (.returned answer, u) ∧
      Session.resolve resolver.noted name text (s.noted past) =
        (.returned (answer.map Binding.noted),
          u.noted (past ++ (resolver.visits name text s).filter Visit.isNoted)) ∧
      Settled dependencies u.table name text (resolver.visits name text s) answer := by
  have hsound := sound_of_served hR wf h
  refine ⟨fun name hname => ⟨fun dependency hn => hsound.closed.transGen hn hname,
    hsound.once hname, fun before v later split hv => hsound.after split hv⟩, fun name text => ?_⟩
  obtain ⟨answer, u, hcall, -, hsettled⟩ := settles hR wf name text s hsound.wellFormed
    hsound.closed fun other _ => hsound.quiet other
  have hnoted := Session.notes_resolve resolver name text s past
  rw [hcall] at hnoted
  exact ⟨answer, u, hcall, hnoted, hsettled⟩

/-! ## Resolvers that are made to request dependencies -/

theorem pursues_requireAll {final : Plan σ} (hfinal : Plan.Pursues resolver [] final) :
    ∀ rest, Plan.Pursues resolver rest (Plan.requireAll resolver final rest)
  | [] => hfinal
  | (_, _) :: rest => .request (fun _ => rfl) fun _ => pursues_requireAll hfinal rest

theorem requireAll_congr {first second : Resolver σ} (final : Plan σ) :
    ∀ {rest : List (String × String)}, (∀ d ∈ rest, first d.1 = second d.1) →
      Plan.requireAll first final rest = Plan.requireAll second final rest
  | [], _ => rfl
  | (name, text) :: rest, h => by
    obtain ⟨hhead, htail⟩ := List.forall_mem_cons.mp h
    simp only [Plan.requireAll, hhead, requireAll_congr final htail]

section

variable {base : Resolver σ} {rank : String → Nat}

/-- A name whose rank is within the depth is resolved in the same way at any greater depth. -/
theorem withDependencies_succ
    (hrank : ∀ {dependency name}, Needs dependencies dependency name →
      rank dependency < rank name) {depth : Nat} {name : String} (h : rank name ≤ depth) :
    Resolver.withDependencies dependencies base (depth + 1) name =
      Resolver.withDependencies dependencies base depth name := by
  have hbelow : ∀ d ∈ dependencies name, rank d.1 < rank name := fun d hd => hrank ⟨d.2, hd⟩
  induction depth generalizing name with
  | zero =>
    have hnone : dependencies name = [] :=
      List.eq_nil_iff_forall_not_mem.mpr fun d hd => by have := hbelow d hd; omega
    funext signature
    simp only [Resolver.withDependencies, hnone, Plan.requireAll]
  | succ depth ih =>
    funext signature
    refine requireAll_congr _ fun d hd => ih ?_ fun e he => hrank ⟨e.2, he⟩
    have := hbelow d hd
    omega

/-- **A resolver that is made to request dependencies does so**, if a rank that decreases along
the dependencies stays within the depth. -/
theorem follows_withDependencies
    (hrank : ∀ {dependency name}, Needs dependencies dependency name →
      rank dependency < rank name) {depth : Nat} (hdepth : ∀ name, rank name ≤ depth)
    (hbase : ∀ name signature,
      Plan.Pursues (Resolver.withDependencies dependencies base depth) [] (base name signature)) :
    (Resolver.withDependencies dependencies base depth).Follows dependencies := by
  intro name signature
  rw [← withDependencies_succ hrank (hdepth name)]
  exact pursues_requireAll (hbase name signature) _

theorem wellFounded_of_rank
    (hrank : ∀ {dependency name}, Needs dependencies dependency name →
      rank dependency < rank name) : WellFounded (Needs dependencies) :=
  Subrelation.wf hrank (measure rank).wf

end

/-! ## A diamond -/

/-- Two ways lead from `@a` down to `@d`, and the second goes on to `@e`. -/
def diamondNeeds : String → List (String × String)
  | "@a" => [("@b", "():VOID"), ("@c", "():VOID")]
  | "@b" => [("@d", "():VOID")]
  | "@c" => [("@d", "():VOID"), ("@e", "():VOID")]
  | _ => []

/-- The length of the longest way down. -/
def diamondRank : String → Nat
  | "@a" => 2
  | "@b" => 1
  | "@c" => 1
  | _ => 0

/-- Decides in favour of every name, except of `@e` the first time.  The world says whether that
has been. -/
def diamondBase : Resolver Bool := fun name _ =>
  .step (fun asked => asked || name == "@e") fun asked =>
    .answer (if name = "@e" ∧ asked = false then .error (.symbolNotFound name)
      else .ok fun _ world => (.returned (.ok .void), [], world))

def diamond : Resolver Bool := .withDependencies diamondNeeds diamondBase 2

theorem diamondRank_lt {dependency name : String} (h : Needs diamondNeeds dependency name) :
    diamondRank dependency < diamondRank name := by
  have hall : ∀ d ∈ diamondNeeds name, diamondRank d.1 < diamondRank name := by
    unfold diamondNeeds
    split
    all_goals first | decide | simp
  obtain ⟨text, h⟩ := h
  exact hall _ h

theorem diamondRank_le (name : String) : diamondRank name ≤ 2 := by
  unfold diamondRank
  split <;> omega

theorem diamond_follows : diamond.Follows diamondNeeds :=
  follows_withDependencies diamondRank_lt diamondRank_le fun _ _ => .step fun _ => .decide _

/-- The cache after one request for `@a`, which fails at `@e`. -/
def diamondOnce : Session Bool := (Session.resolve diamond "@a" "():VOID" (.start false)).2

/-- What was noted meanwhile. -/
def diamondPast : List Visit :=
  (Session.resolve diamond.noted "@a" "():VOID").notes (.start false)

theorem served_diamondOnce : Served diamond diamondOnce diamondPast := by
  have h : Served diamond diamondOnce ([] ++ diamondPast) :=
    .resolve (.start rfl) (Prod.eta _).symm
  rwa [List.nil_append] at h

/-- After the request that failed `@b` is bound, and `@d` with it, which was reached twice and asked
for once; another request returns. -/
theorem served_diamond :
    diamondPast.filterMap Visit.failure? =
        ["@e", "@c", "@a"].map (·, .symbolNotFound "@e") ∧
      diamondOnce.table.contains "@b" = true ∧ diamondOnce.table.contains "@d" = true ∧
      diamondPast.countP (Visit.asks "@d") = 1 ∧ diamondPast.countP (Visit.succeeds "@d") = 1 ∧
      ∃ answer u, Session.resolve diamond "@a" "():VOID" diamondOnce = (.returned answer, u) ∧
        Session.resolve diamond.noted "@a" "():VOID" (diamondOnce.noted diamondPast) =
          (.returned (answer.map Binding.noted), u.noted (diamondPast ++
            (diamond.visits "@a" "():VOID" diamondOnce).filter Visit.isNoted)) ∧
        Settled diamondNeeds u.table "@a" "():VOID" (diamond.visits "@a" "():VOID" diamondOnce)
          answer := by
  have hb : diamondOnce.table.contains "@b" = true := by decide +kernel
  have hfailures : diamondPast.filterMap Visit.failure? =
      ["@e", "@c", "@a"].map (·, .symbolNotFound "@e") := by decide +kernel
  have hasked : diamondPast.countP (Visit.asks "@d") = 1 := by decide +kernel
  have hneeds : Needs diamondNeeds "@d" "@b" := ⟨"():VOID", List.mem_cons_self⟩
  obtain ⟨hbound, hnext⟩ := served_dependencies diamond_follows
    (wellFounded_of_rank diamondRank_lt) served_diamondOnce
  have hd := (hbound "@b" hb).1 "@d" (.single hneeds)
  exact ⟨hfailures, hb, hd, hasked, (hbound "@d" hd).2.1, hnext "@a" "():VOID"⟩

end Dependencies

end NativeLink
