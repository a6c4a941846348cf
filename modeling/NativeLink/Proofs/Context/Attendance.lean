import NativeLink.Proofs.Context.Life
import NativeLink.Proofs.Session.Pursuit
import NativeLink.Proofs.Session.Trail

/-!
# What a life keeps

A call that ends lets the table of its context evolve, and its visits account for the
bindings it has made.  That is the rule `Act.Takes`, which holds of requests and is passed on
to everything that contexts do.

It follows that at each moment of a life the table is attended (`Alive.attended`): each
binding in it was made for its name, and only the names whose resolvers are at work are being
resolved.  From then on tables evolve, whatever is called and however it ends
(`Later.evolves`), so what is bound stays bound (`Alive.get?`), and no name comes to be in
the middle of being resolved that was not (`Later.busy`).
-/

namespace NativeLink

variable {σ : Type}

/-- The table of a context in which the resolvers of these names are at work. -/
structure Table.Attended (names : List String) (t : Table σ) : Prop where
  wellFormed : t.WellFormed
  busy : ∀ name, t.cellOf name = .busy → name ∈ names
  made : ∀ name b, t.get? name = some b → b.MadeFor name

namespace Table

theorem attended_empty : Attended [] (.empty : Table σ) where
  wellFormed := wellFormed_empty
  busy name hb := by simp [cellOf, position?, empty] at hb
  made name b hb := by simp [get?, position?, empty] at hb

/-- A cell that is neither bound nor busy is empty. -/
theorem cellOf_of_unbound {t : Table σ} {name : String} (hname : t.get? name = none)
    (free : t.cellOf name ≠ .busy) : t.cellOf name = .empty := by
  rw [get?_eq_cellOf] at hname
  cases hc : t.cellOf name with
  | empty => rfl
  | busy => exact absurd hc free
  | bound b =>
    rw [hc] at hname
    cases hname

end Table

/-! ## Acts -/

/-- The act lets the table evolve if it ends, and the visits account for what it has bound. -/
def Act.Takes {α : Type} (act : Act σ α) (visits : Session σ → List Visit) : Prop :=
  ∀ ⦃s u : Session σ⦄ ⦃outcome : Outcome α⦄, s.table.WellFormed → act s = (outcome, u) →
    outcome ≠ .stuck → s.table.Evolves (fun _ => True) u.table ∧
      Table.Course s.table u.table (visits s)

namespace Act.Takes

variable {α β : Type} {act : Act σ α} {next : α → Act σ β} {visits : Session σ → List Visit}

/-- **The visits of one thing after another** account for both. -/
theorem andThen {later : α → Session σ → List Visit} (h : act.Takes visits)
    (k : ∀ a, (next a).Takes (later a)) :
    (act.andThen next).Takes (act.visitsThen visits later) := by
  intro s u outcome hs heq ended
  rw [Act.andThen] at heq
  rw [Act.visitsThen]
  rcases hact : act s with ⟨a | cause | _, v⟩
  · simp only [hact] at heq ⊢
    obtain ⟨hevolves, hcourse⟩ := h hs hact (by simp)
    obtain ⟨hnext, hlater⟩ := k a hcourse.grows.wellFormed heq ended
    exact ⟨hevolves.trans hnext, hcourse.trans hlater⟩
  · simp only [hact] at heq ⊢
    cases heq
    rw [List.append_nil]
    exact h hs hact (by simp)
  · simp only [hact] at heq
    cases heq
    exact absurd rfl ended

/-- What is only worked out from a result takes nothing more. -/
theorem andThen_table (h : act.Takes visits)
    (k : ∀ a s, (next a s).2.table = s.table) : (act.andThen next).Takes visits := by
  intro s u outcome hs heq ended
  rw [Act.andThen] at heq
  rcases hact : act s with ⟨a | cause | _, v⟩
  · simp only [hact] at heq
    have hu : u.table = v.table := by rw [← k a v, heq]
    rw [hu]
    exact h hs hact (by simp)
  · simp only [hact] at heq
    cases heq
    exact h hs hact (by simp)
  · simp only [hact] at heq
    cases heq
    exact absurd rfl ended

end Act.Takes

namespace Session

/-! ## Calls -/

section

variable (resolver : Resolver σ)

/-- The tables evolve along a call, also if it never ends. -/
theorem resolve_leads {s u : Session σ} {name text : String} {outcome : Outcome (Answer σ)}
    (hs : s.table.WellFormed) (call : resolve resolver name text s = (outcome, u)) :
    Leads (fun _ => True) s (pointsWithin resolver name text s) u :=
  planned_leads hs call fun _ _ => trivial

theorem resolve_takes (name text : String) :
    (resolve resolver name text).Takes (resolver.visits name text) :=
  fun _ _ _ hs call ended =>
    ⟨(resolve_leads resolver hs call).evolves, Dependencies.resolve_course hs call ended⟩

theorem construct_takes (o : Operation) :
    (construct resolver o).Takes (resolver.constructVisits o) :=
  (resolve_takes resolver _ _).andThen_table fun _ _ => rfl

theorem attempt_takes (o : Operation) :
    (attempt resolver o).Takes (resolver.constructVisits o) :=
  (construct_takes resolver o).andThen_table fun _ _ => rfl

theorem probe_takes : (probe resolver).Takes resolver.probeVisits :=
  (attempt_takes resolver _).andThen fun _ => (attempt_takes resolver _).andThen fun _ =>
    (attempt_takes resolver _).andThen_table fun _ _ => rfl

end

/-- **What is being resolved when a call begins is so at every moment within it**, if it ends. -/
theorem cellOf_of_point {resolver : Resolver σ} {name text other : String} {s p u : Session σ}
    {outcome : Outcome (Answer σ)} (hs : s.table.WellFormed) (hbusy : s.table.cellOf other = .busy)
    (point : p ∈ pointsWithin resolver name text s)
    (call : resolve resolver name text s = (outcome, u)) (ended : outcome ≠ .stuck) :
    p.table.cellOf other = .busy := by
  have hvisits := name_ne_of_busy hs hbusy call ended fun signature {_ _ _} hs hbusy run ended =>
    (resolver name signature).name_ne_of_busy hs hbusy run ended
  have hleads : Leads (fun name => name ≠ other) s _ u := planned_leads hs call hvisits
  have hevolves := ((leads_iff.mp hleads).1 p point).1
  exact (hevolves.cellOf_eq hs fun hne => hne rfl).trans hbusy

/-! ## Lives -/

variable {names : List String} {s t u : Session σ}

/-- What a step does to the table. -/
theorem Step.takes (h : Step s u) (hs : s.table.WellFormed) :
    s.table.Evolves (fun _ => True) u.table ∧ s.table.Grows u.table := by
  cases h with
  | resolve call ended => exact (resolve_takes _ _ _ hs call ended).imp_right (·.grows)
  | construct call ended => exact (construct_takes _ _ hs call ended).imp_right (·.grows)
  | probe call ended => exact (probe_takes _ hs call ended).imp_right (·.grows)
  | elsewhere table =>
    rw [table]
    exact ⟨.refl _, .refl hs⟩

/-- **At each moment of a life the table is attended** by the resolvers that are at work. -/
theorem Alive.attended (h : Alive names s) : s.table.Attended names := by
  induction h with
  | start world => exact Table.attended_empty
  | step _ step ih =>
    obtain ⟨hevolves, hgrows⟩ := step.takes ih.wellFormed
    exact ⟨hgrows.wellFormed, fun name hb => ih.busy name (hgrows.busy hb),
      hevolves.made ih.wellFormed ih.made⟩
  | @enter names name text signature s _ empty parsed ih =>
    have hwf := ih.wellFormed
    have hevolves : s.table.Evolves (fun _ => True) (s.begun name signature).table :=
      evolves_begun trivial ((cellOf_eq_cell_acquire _ _).symm.trans empty) signature
    refine ⟨hwf.opened name, fun other hb => ?_, hevolves.made hwf ih.made⟩
    have hopened := (hwf.cellOf_opened name other).symm.trans hb
    by_cases ho : other = name
    · exact ho ▸ List.mem_cons_self
    · rw [if_neg ho] at hopened
      exact List.mem_cons_of_mem _ (ih.busy other hopened)

/-- A call that returns leaves a moment of the same life. -/
theorem Alive.of_resolve {resolver : Resolver σ} {name text : String} {answered : Bool}
    (h : Alive names s)
    (returned : (resolve resolver name text s).1.map Except.isOk = .returned answered) :
    Alive names (resolve resolver name text s).2 := by
  refine h.step (.resolve (Prod.eta _).symm fun hstuck => ?_)
  rw [hstuck] at returned
  cases returned

/-! ## What comes later -/

/-- What the end of a call that was at work does to the table. -/
theorem Ends.takes (h : Ends s u) :
    s.table.Evolves (fun _ => True) u.table ∧
      ∀ name, u.table.cellOf name = .busy → s.table.cellOf name = .busy := by
  cases h with
  | resolve alive point call ended =>
    have hwf := alive.attended.wellFormed
    refine ⟨((leads_iff.mp (resolve_leads _ hwf call)).1 s point).2, fun name hb => ?_⟩
    have hbegun := (Dependencies.resolve_course hwf call ended).grows.busy hb
    exact cellOf_of_point hwf hbegun point call ended

namespace Later

theorem refl (s : Session σ) : Later s s := Relation.ReflTransGen.refl

theorem step (h : Later s t) (k : Step t u) : Later s u := Relation.ReflTransGen.tail h (.inl k)

theorem trans (h : Later s t) (k : Later t u) : Later s u := Relation.ReflTransGen.trans h k

/-- What is left by a call that returns comes later. -/
theorem of_construct {resolver : Resolver σ} {o : Operation}
    {made : Except ResolveError (Invoker σ o.arity)}
    (call : construct resolver o s = (.returned made, u)) : Later s u :=
  (refl s).step (.construct call (by simp))

/-- **Later tables evolve out of earlier ones**, and no name is being resolved in them that was not
before. -/
theorem takes (h : Later s u) (hs : s.table.WellFormed) :
    s.table.Evolves (fun _ => True) u.table ∧
      ∀ name, u.table.cellOf name = .busy → s.table.cellOf name = .busy := by
  induction h with
  | refl => exact ⟨.refl _, fun _ hb => hb⟩
  | tail _ k ih =>
    obtain ⟨hevolves, hbusy⟩ := ih
    rcases k with k | k
    · obtain ⟨hnext, hgrows⟩ := k.takes (hevolves.wellFormed hs)
      exact ⟨hevolves.trans hnext, fun name hb => hbusy name (hgrows.busy hb)⟩
    · obtain ⟨hnext, hback⟩ := k.takes
      exact ⟨hevolves.trans hnext, fun name hb => hbusy name (hback name hb)⟩

end Later

theorem Onward.of_later (h : Later s t) (k : Onward t u) : Onward s u := by
  obtain ⟨r, hlater, hmoment⟩ := k
  exact ⟨r, h.trans hlater, hmoment⟩

/-- **What is bound stays bound** for the rest of the life, also while resolvers are at work. -/
theorem Onward.get? (h : Onward s t) (hs : s.table.WellFormed) {name : String} {b : Binding σ}
    (hb : s.table.get? name = some b) : t.table.get? name = some b := by
  obtain ⟨r, hlater, hmoment⟩ := h
  have hevolves := (hlater.takes hs).1
  have hr : r.table.get? name = some b := hevolves.get? hs hb
  rcases hmoment with rfl | ⟨resolver, other, text, point⟩
  · exact hr
  · have hleads : Leads (fun _ => True) r _ (resolve resolver other text r).2 :=
      resolve_leads resolver (hevolves.wellFormed hs) (Prod.eta _).symm
    exact ((leads_iff.mp hleads).1 t point).1.get? (hevolves.wellFormed hs) hr

/-! ## Moments within calls -/

/-- The moments within a request, from those of its resolver. -/
theorem Alive.of_points {name text : String} {points : Signature → Session σ → List (Session σ)}
    {p : Session σ} (h : Alive names s)
    (inner : ∀ signature {names : List String} {s : Session σ}, Alive names s →
      ∀ p ∈ points signature s, ∃ deeper, Alive (deeper ++ names) p)
    (hp : p ∈ Session.points name text points s) : ∃ deeper, Alive (deeper ++ names) p := by
  obtain ⟨signature, hcell, hparse, hp⟩ := exists_run_of_mem_points hp
  have hbegun := h.enter ((cellOf_eq_cell_acquire _ _).trans hcell) hparse
  obtain ⟨deeper, hdeeper⟩ := inner signature hbegun p hp
  exact ⟨deeper ++ [name], by simpa using hdeeper⟩

/-- **The moments of a plan** belong to the life in which its resolver works, and they come onward
of the first. -/
theorem moments_of_plan (plan : Plan σ) (h : Alive names s) :
    ∀ p ∈ plan.points s, Onward s p ∧ ∃ deeper, Alive (deeper ++ names) p := by
  have hself : ∀ {names : List String} {s p : Session σ}, Alive names s → p = s →
      Onward s p ∧ ∃ deeper, Alive (deeper ++ names) p := by
    rintro names s p h rfl
    exact ⟨⟨p, .refl p, .inl rfl⟩, [], h⟩
  have hnext : ∀ {names : List String} {s v p : Session σ}, Step s v →
      (Onward v p ∧ ∃ deeper, Alive (deeper ++ names) p) →
        Onward s p ∧ ∃ deeper, Alive (deeper ++ names) p :=
    fun k => And.imp_left (Onward.of_later ((Later.refl _).step k))
  induction plan generalizing names s with
  | answer result => exact fun p hp => hself h (List.mem_singleton.mp hp)
  | panic cause => exact fun p hp => hself h (List.mem_singleton.mp hp)
  | stuck => exact fun p hp => hself h (List.mem_singleton.mp hp)
  | tell event next ih =>
    have told : Step s (s.tell [event]) := .elsewhere rfl
    intro p hp
    rcases List.mem_cons.mp hp with hp | hp
    · exact hself h hp
    · exact hnext told (ih (h.step told) p hp)
  | step change next ih =>
    have changed : Step s { s with world := change s.world } := .elsewhere rfl
    intro p hp
    rcases List.mem_cons.mp hp with hp | hp
    · exact hself h hp
    · exact hnext changed (ih s.world (h.step changed) p hp)
  | look name next ih =>
    intro p hp
    rcases List.mem_cons.mp hp with hp | hp
    · exact hself h hp
    · exact ih _ h p hp
  | request name text work next ihwork ihnext =>
    intro p hp
    rw [Plan.points] at hp
    rcases List.mem_cons.mp hp with hp | hp
    · exact hself h hp
    · rcases List.mem_append.mp hp with hp | hp
      · refine ⟨⟨s, .refl s, .inr ⟨fun _ => work, name, text, hp⟩⟩, ?_⟩
        exact h.of_points (fun signature {_ _} h p hp => (ihwork signature h p hp).2) hp
      · rcases hrequest : Session.request name text (fun signature => (work signature).run) s
          with ⟨given | cause | _, v⟩
        all_goals simp only [hrequest] at hp
        · have call : resolve (fun _ => work) name text s = (.returned given, v) := hrequest
          have called : Step s v := .resolve call (by simp)
          exact hnext called (ihnext given (h.step called) p hp)
        · cases hp
        · cases hp

/-- **Every moment within a call belongs to the life** in which the call is made. -/
theorem Alive.within {resolver : Resolver σ} {name text : String} {p : Session σ}
    (h : Alive names s) (hp : p ∈ pointsWithin resolver name text s) :
    ∃ deeper, Alive (deeper ++ names) p :=
  h.of_points (fun signature {_ _} h p hp => (moments_of_plan (resolver name signature) h p hp).2) hp

end Session

end NativeLink
