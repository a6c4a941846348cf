import NativeLink.Cache.Trail
import NativeLink.Proofs.Cache.Change

/-!
# Evolution along a trail

The tables at the points of a run evolve out of each other, in the order of the points,
whatever the resolvers do and however their requests end: `Plan.run_leads` for a plan and
`History.run_leads` for a history.  The names for which they change are those that are
visited.

The statement is about all pairs of points at once.  Points are put together out of stretches:
`Session.Leads names s points u` says that the tables evolve from `s` through `points` to `u`.
The stretch of a resolver lies within that of its request, and a plan is one stretch after the
other.

A request sets the cell of its name once more when its resolver has come to an end.  That it
still knows the slot then, and finds it busy, is what `Plan.run_course` says of resolvers that
come to an end.
-/

namespace NativeLink

variable {σ : Type}

open Table

namespace Session

/-! ## Stretches of points -/

/-- The tables evolve from `s` through the points to `u`. -/
def Leads (names : String → Prop) (s : Session σ) (points : List (Session σ)) (u : Session σ) :
    Prop :=
  (s :: (points ++ [u])).Pairwise fun a b => a.table.Evolves names b.table

section

variable {names : String → Prop} {s t u v : Session σ} {points later : List (Session σ)}

theorem leads_iff : Leads names s points u ↔
    (∀ a ∈ points, s.table.Evolves names a.table ∧ a.table.Evolves names u.table) ∧
      points.Pairwise (fun a b => a.table.Evolves names b.table) ∧
        s.table.Evolves names u.table := by
  unfold Leads
  rw [List.pairwise_cons, List.pairwise_append, List.forall_mem_append, List.forall_mem_singleton]
  constructor
  · rintro ⟨⟨hs, hsu⟩, hpoints, -, hu⟩
    exact ⟨fun a ha => ⟨hs a ha, hu a ha u (List.mem_singleton_self u)⟩, hpoints, hsu⟩
  · rintro ⟨hends, hpoints, hsu⟩
    refine ⟨⟨fun a ha => (hends a ha).1, hsu⟩, hpoints, List.pairwise_singleton _ _, ?_⟩
    rintro a ha b hb
    rw [List.mem_singleton.mp hb]
    exact (hends a ha).2

namespace Leads

theorem evolves (h : Leads names s points u) : s.table.Evolves names u.table :=
  (leads_iff.mp h).2.2

theorem nil (h : s.table.Evolves names u.table) : Leads names s [] u :=
  leads_iff.mpr ⟨by simp, .nil, h⟩

/-- A stretch begins at its first point. -/
theorem cons (h : Leads names s points u) : Leads names s (s :: points) u := by
  obtain ⟨hends, hpoints, hsu⟩ := leads_iff.mp h
  refine leads_iff.mpr ⟨?_, List.pairwise_cons.mpr ⟨fun a ha => (hends a ha).1, hpoints⟩, hsu⟩
  exact List.forall_mem_cons.mpr ⟨⟨.refl _, hsu⟩, hends⟩

/-- One stretch after another. -/
theorem append (h : Leads names s points v) (k : Leads names v later u) :
    Leads names s (points ++ later) u := by
  obtain ⟨hends, hpoints, hsv⟩ := leads_iff.mp h
  obtain ⟨kends, klater, hvu⟩ := leads_iff.mp k
  refine leads_iff.mpr ⟨List.forall_mem_append.mpr ⟨?_, ?_⟩, ?_, hsv.trans hvu⟩
  · exact fun a ha => ⟨(hends a ha).1, (hends a ha).2.trans hvu⟩
  · exact fun a ha => ⟨hsv.trans (kends a ha).1, (kends a ha).2⟩
  · exact List.pairwise_append.mpr ⟨hpoints, klater, fun a ha b hb =>
      (hends a ha).2.trans (kends b hb).1⟩

/-- A stretch within another. -/
theorem within (h : Leads names t points v) (hs : s.table.Evolves names t.table)
    (hu : v.table.Evolves names u.table) : Leads names s points u := by
  obtain ⟨hends, hpoints, htv⟩ := leads_iff.mp h
  refine leads_iff.mpr ⟨fun a ha => ?_, hpoints, hs.trans (htv.trans hu)⟩
  exact ⟨hs.trans (hends a ha).1, (hends a ha).2.trans hu⟩

end Leads

end

/-! ## Requests -/

section

variable {names : String → Prop} {name text : String}
  {resolve : Signature → Act σ (Except ResolveError (Callable σ))}
  {inner : Signature → Session σ → List Visit}
  {points : Signature → Session σ → List (Session σ)} {s : Session σ}

/-- A request has points only if its resolver is asked. -/
theorem exists_run_of_mem_points {p : Session σ} (hp : p ∈ Session.points name text points s) :
    ∃ signature, (s.table.acquire name).2.cell (s.table.acquire name).1 = .empty ∧
      Signature.parse text = .ok signature ∧ p ∈ points signature (s.begun name signature) := by
  unfold Session.points at hp
  dsimp only at hp
  split at hp
  · cases hp
  · cases hp
  · next hcell =>
    split at hp
    · cases hp
    · next signature hparse => exact ⟨signature, hcell, hparse, hp⟩

theorem points_of_not_run
    (h : ∀ signature, (s.table.acquire name).2.cell (s.table.acquire name).1 = .empty →
      Signature.parse text ≠ .ok signature) : Session.points name text points s = [] := by
  refine List.eq_nil_iff_forall_not_mem.mpr fun p hp => ?_
  obtain ⟨signature, hcell, hparse, -⟩ := exists_run_of_mem_points hp
  exact h signature hcell hparse

theorem points_of_run {signature : Signature}
    (hc : (s.table.acquire name).2.cell (s.table.acquire name).1 = .empty)
    (hparse : Signature.parse text = .ok signature) :
    Session.points name text points s = points signature (s.begun name signature) := by
  simp only [Session.points, hc, hparse]
  rfl

/-- A request visits its own name, whatever comes of it. -/
theorem exists_visit (name text : String)
    (resolve : Signature → Act σ (Except ResolveError (Callable σ)))
    (inner : Signature → Session σ → List Visit) (s : Session σ) :
    ∃ v ∈ Session.visits name text resolve inner s, v.name = name := by
  unfold Session.visits
  dsimp only
  split
  · exact ⟨_, List.mem_cons_self, rfl⟩
  · exact ⟨_, List.mem_cons_self, rfl⟩
  · split
    · exact ⟨_, List.mem_cons_self, rfl⟩
    · exact ⟨_, List.mem_cons_self, rfl⟩

/-- The resolver's own visits are visits of the request. -/
theorem mem_visits_of_run {signature : Signature} {v : Visit}
    (hc : (s.table.acquire name).2.cell (s.table.acquire name).1 = .empty)
    (hparse : Signature.parse text = .ok signature)
    (hv : v ∈ inner signature (s.begun name signature)) :
    v ∈ Session.visits name text resolve inner s := by
  rw [visits_of_run hc hparse rfl]
  exact List.mem_cons_of_mem _ (List.mem_append_left _ hv)

theorem evolves_begun (hname : names name)
    (hc : (s.table.acquire name).2.cell (s.table.acquire name).1 = .empty)
    (signature : Signature) :
    s.table.Evolves names (s.begun name signature).table := by
  refine (Evolves.refl _).tail hname (.acquire _) |>.tail hname ?_
  exact .set (position?_acquire_self ..) (by rw [hc]; rfl) nofun

/-- The end of a request whose resolver has come to an end. -/
theorem evolves_settled {u : Table σ} {c : Cell σ} (hname : names name)
    (hs : s.table.WellFormed) (h : Grows (s.table.opened name) u)
    (made : ∀ b, c.binding? = some b → b.MadeFor name) :
    u.Evolves names (u.setCell (s.table.acquire name).1 c) := by
  have place := h.position?_of_opened hs
  have busy : u.cell (s.table.acquire name).1 = .busy := by
    rw [← cellOf_of_position? place, h.cellOf_of_opened hs]
  exact (Evolves.refl u).tail hname (.set place (by rw [busy]; rfl) made)

/-- **The tables evolve along a request** if they do along the plan of its resolver. -/
theorem request_leads {work : Signature → Plan σ} {outcome : Outcome (Answer σ)} {u : Session σ}
    (hs : s.table.WellFormed)
    (h : request name text (fun signature => (work signature).run) s = (outcome, u))
    (hvisits : ∀ v ∈ Session.visits name text (fun signature => (work signature).run)
      (fun signature => (work signature).visits) s, names v.name)
    (hwork : ∀ signature {s : Session σ}, s.table.WellFormed →
      (∀ v ∈ (work signature).visits s, names v.name) →
        Leads names s ((work signature).points s) ((work signature).run s).2) :
    Leads names s (Session.points name text (fun signature => (work signature).points) s) u := by
  have hname : names name := by
    obtain ⟨v, hv, rfl⟩ := exists_visit name text (fun signature => (work signature).run)
      (fun signature => (work signature).visits) s
    exact hvisits v hv
  have hacquired : s.table.Evolves names (s.table.acquire name).2 :=
    (Evolves.refl _).tail hname (.acquire _)
  -- the stretch of a resolver that is asked
  have hasked : ∀ {signature : Signature} {outcome : Outcome (Except ResolveError (Callable σ))}
      {v u : Session σ}, (s.table.acquire name).2.cell (s.table.acquire name).1 = .empty →
      Signature.parse text = .ok signature →
      (work signature).run (s.begun name signature) = (outcome, v) →
      v.table.Evolves names u.table →
        Leads names s (Session.points name text (fun signature => (work signature).points) s) u := by
    intro signature outcome v u cell parsed run hu
    rw [points_of_run cell parsed]
    refine (hwork signature (hs.opened name) fun w hw => hvisits w
      (mem_visits_of_run cell parsed hw)).within (evolves_begun hname cell signature) ?_
    rw [run]
    exact hu
  have hgrows : ∀ {signature : Signature} {outcome : Outcome (Except ResolveError (Callable σ))}
      {v : Session σ}, (work signature).run (s.begun name signature) = (outcome, v) →
      outcome ≠ .stuck → Grows (s.table.opened name) v.table :=
    fun run ended => ((work _).run_course (hs.opened name) run ended).grows
  cases requested_of_request h with
  | hit cell =>
    rw [points_of_not_run fun _ hempty => by rw [cell] at hempty; cases hempty]
    exact .nil (hacquired.tail hname (.release _ _))
  | blocked cell =>
    rw [points_of_not_run fun _ hempty => by rw [cell] at hempty; cases hempty]
    exact .nil hacquired
  | refused cell parsed =>
    rw [points_of_not_run fun _ _ hok => by rw [parsed] at hok; cases hok]
    have hemptied := hacquired.tail hname
      (.set (c := .empty) (position?_acquire_self ..) (by rw [cell]; rfl) nofun)
    exact .nil ((hemptied.tail hname (.discard _ _)).tail hname (.release _ _))
  | @accepted signature callable v cell parsed run =>
    have hbound := evolves_settled hname hs (hgrows run (by simp))
      (c := .bound (.make v.fresh name signature callable)) fun b hb => by
        cases hb
        exact Binding.madeFor_make parsed v.fresh name callable
    exact hasked cell parsed run (hbound.tail hname (.release _ _))
  | failed cell parsed run =>
    have hemptied := evolves_settled hname hs (hgrows run (by simp)) (c := .empty) nofun
    exact hasked cell parsed run
      ((hemptied.tail hname (.discard _ _)).tail hname (.release _ _))
  | panicked cell parsed run =>
    have hemptied := evolves_settled hname hs (hgrows run (by simp)) (c := .empty) nofun
    exact hasked cell parsed run (hemptied.tail hname (.release _ _))
  | stuck cell parsed run => exact hasked cell parsed run (.refl _)

end

end Session

/-! ## Plans and histories -/

/-- **The tables evolve along a plan**, by changes made for the names it visits. -/
theorem Plan.run_leads {names : String → Prop} (p : Plan σ) {s : Session σ}
    (hs : s.table.WellFormed) (hvisits : ∀ v ∈ p.visits s, names v.name) :
    Session.Leads names s (p.points s) (p.run s).2 := by
  induction p generalizing s with
  | answer result => exact (Session.Leads.nil (.refl _)).cons
  | panic cause => exact (Session.Leads.nil (.refl _)).cons
  | stuck => exact (Session.Leads.nil (.refl _)).cons
  | tell event next ih =>
    exact ((ih (s := s.tell [event]) hs hvisits).within (s := s) (.refl _) (.refl _)).cons
  | step change next ih =>
    exact ((ih s.world (s := { s with world := change s.world }) hs hvisits).within (s := s)
      (.refl _) (.refl _)).cons
  | look name next ih => exact (ih (s.table.get? name) hs hvisits).cons
  | request name text work next ihwork ihnext =>
    rw [Plan.visits, List.forall_mem_append] at hvisits
    obtain ⟨hfirst, hrest⟩ := hvisits
    rw [Plan.points, Plan.run, Act.andThen]
    rcases hrequest : Session.request name text (fun signature => (work signature).run) s
      with ⟨given | cause | _, v⟩
    all_goals
      have hleads := Session.request_leads hs hrequest hfirst ihwork
      simp only [hrequest] at hrest ⊢
    · exact (hleads.append (ihnext given (hleads.evolves.wellFormed hs) hrest)).cons
    · rw [List.append_nil]
      exact hleads.cons
    · rw [List.append_nil]
      exact hleads.cons

/-- The tables evolve along a request whose resolver follows a plan. -/
theorem Session.planned_leads {names : String → Prop} {name text : String}
    {work : Signature → Plan σ} {s u : Session σ} {outcome : Outcome (Answer σ)}
    (hs : s.table.WellFormed)
    (h : Session.request name text (fun signature => (work signature).run) s = (outcome, u))
    (hvisits : ∀ v ∈ Session.visits name text (fun signature => (work signature).run)
      (fun signature => (work signature).visits) s, names v.name) :
    Session.Leads names s
      (Session.points name text (fun signature => (work signature).points) s) u :=
  Session.request_leads hs h hvisits fun signature _ => (work signature).run_leads

theorem Use.run_leads {names : String → Prop} (use : Use σ) {s : Session σ}
    (hs : s.table.WellFormed) (hvisits : ∀ v ∈ use.visits s, names v.name) :
    Session.Leads names s (use.points s) (use.run s) := by
  cases use with
  | request name text work => exact (Session.planned_leads hs rfl hvisits).cons
  | observe => exact (Session.Leads.nil (.refl _)).cons
  | call binding args =>
    exact (Session.Leads.nil (s := s) (u := (Use.call binding args).run s) (.refl _)).cons

namespace History

/-- **The tables evolve along a history**, by changes made for the names it visits. -/
theorem run_leads {names : String → Prop} (h : History σ) {s : Session σ}
    (hs : s.table.WellFormed) (hvisits : ∀ v ∈ h.visits s, names v.name) :
    Session.Leads names s (h.trail s) (h.run s) := by
  induction h generalizing s with
  | nil => exact (Session.Leads.nil (.refl _)).cons
  | cons use rest ih =>
    rw [History.visits, List.forall_mem_append] at hvisits
    have hleads := use.run_leads hs hvisits.1
    exact hleads.append (ih (hleads.evolves.wellFormed hs) hvisits.2)

end History

end NativeLink
