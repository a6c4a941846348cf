import Mathlib.Data.List.Nodup
import NativeLink.Proofs.Interleaving.Soundness
import NativeLink.Proofs.Session.Standing

/-!
# The order of requests for different names

Errands for different names can be carried out in any order.  Two lists of the same errands,
in which those for one name follow each other in the same way, come to the same
(`order_independent`): every errand is given the same answer and asks its resolver in both
lists or in neither, and the tables that are left bind the same names to the same bindings.

Bindings of the two runs are not equal, because their numbers are given out in the order in
which they are made.  They are the same if they were in the table to begin with, or if the
same errand has created them.  That an errand is meant by this at all is `exists_creator`:
a binding that was not in the table has one creator.

The comparison goes by way of the standings of the names.  In both lists the same errands
for a name come before a given one, so its name stands the same way when its turn comes.
-/

namespace NativeLink

variable {σ : Type}

namespace Session

/-! ## Sessions in which errands may be carried out -/

/-- A session that a cache can come to: at a point of a history, or between two steps of
threads at work. -/
inductive Reachable : Session σ → Prop where
  | point {world : σ} {h : History σ} {s : Session σ} (hs : s ∈ h.trail (.start world)) :
    Reachable s
  | between {world : σ} {threads : List (List (Request σ))} {state : Interleaving.State σ}
    (hs : Interleaving.Reaches (.start world threads) state) (log : List Event) :
    Reachable ⟨state.table, state.world, state.fresh, log⟩

namespace Reachable

variable {s : Session σ}

theorem wellFormed (h : s.Reachable) : s.table.WellFormed := by
  cases h with
  | point hs => exact History.wellFormed_of_mem_trail Table.wellFormed_empty hs
  | between hs log => exact (Interleaving.sound_of_reaches hs).wellFormed

/-- A binding is found under its own name. -/
theorem name_eq (h : s.Reachable) {name : String} {b : Binding σ}
    (hb : s.table.get? name = some b) : b.name = name := by
  cases h with
  | @point world h s hs =>
    have hleads : Leads (fun _ => True) (.start world) (h.trail (.start world)) _ :=
      h.leads Table.wellFormed_empty
    have hevolves := ((leads_iff.mp hleads).1 s hs).1
    refine (hevolves.made Table.wellFormed_empty (fun other b hb => ?_) name b hb).name_eq
    cases hb
  | between hs log =>
    have hsound := Interleaving.sound_of_reaches hs
    obtain ⟨i, hp, hc⟩ := Table.get?_eq_some_iff.mp hb
    exact hsound.wellFormed.apart (hsound.bound i b hc) hp

end Reachable

/-! ## Bindings and answers of two runs -/

/-- Two bindings are the same for two runs that begin in one session: they were in its table,
or the same errand has created the one and the other, which then differ in their numbers only. -/
inductive Same (s : Session σ) (errands others : List (Errand σ)) : Binding σ → Binding σ → Prop
    where
  | old {name : String} {b : Binding σ} (h : s.table.get? name = some b) : Same s errands others b b
  | created {e : Errand σ} {b c : Binding σ} (h : Created errands s e b) (k : Created others s e c)
    (like : c = { b with id := c.id }) : Same s errands others b c

/-- Two outcomes are alike: they are the same error, or bindings that are the same. -/
inductive Alike (same : Binding σ → Binding σ → Prop) :
    Outcome (Answer σ) → Outcome (Answer σ) → Prop where
  | bound {b c : Binding σ} (h : same b c) : Alike same (.returned (.ok b)) (.returned (.ok c))
  | failed (error : ResolveError) :
    Alike same (.returned (.error error)) (.returned (.error error))
  | stuck : Alike same .stuck .stuck

theorem isSome_of_rel {same : Binding σ → Binding σ → Prop} {found found' : Option (Binding σ)}
    (h : Option.Rel same found found') : found.isSome = found'.isSome := by
  cases h <;> rfl

section

variable {s : Session σ} {errands others : List (Errand σ)} {e : Errand σ} {st : Standing σ}
  {b c : Binding σ}

theorem same_of_created (hs : s.table.WellFormed) (h : Created errands s e b)
    (k : Created others s e c) : Same s errands others b c := by
  refine .created h k ?_
  obtain ⟨signature, callable, hverdict, hb⟩ := h.eq_make hs
  obtain ⟨signature', callable', hverdict', hc⟩ := k.eq_make hs
  obtain ⟨rfl, rfl⟩ := Prod.mk.inj (Except.ok.inj (hverdict.symm.trans hverdict'))
  rw [hb, hc]
  rfl

/-- Errands whose names stand the same way are answered alike. -/
theorem alike_of_answers (hs : s.table.WellFormed) {name : String}
    {outcome outcome' : Outcome (Answer σ)}
    (hold : ∀ b, st = .old b → s.table.get? name = some b)
    (h : st.Answers (Created errands s) e outcome) (k : st.Answers (Created others s) e outcome') :
    Alike (s.Same errands others) outcome outcome' := by
  cases h with
  | blocked => cases k; exact .stuck
  | old b => cases k; exact .bound (.old (hold b rfl))
  | found hb =>
    cases k with
    | found hc => exact .bound (same_of_created hs hb hc)
  | refused hverdict =>
    cases k with
    | refused hverdict' =>
      rw [Except.error.inj (hverdict.symm.trans hverdict')]
      exact .failed _
    | accepted hverdict' hc => cases hverdict.symm.trans hverdict'
  | accepted hverdict hb =>
    cases k with
    | refused hverdict' => cases hverdict.symm.trans hverdict'
    | accepted hverdict' hc => exact .bound (same_of_created hs hb hc)

/-- Names that stand the same way are bound the same way. -/
theorem rel_of_shows (hs : s.table.WellFormed) {name : String} {cell cell' : Cell σ}
    (hold : ∀ b, st = .old b → s.table.get? name = some b)
    (h : st.Shows (Created errands s) cell) (k : st.Shows (Created others s) cell') :
    Option.Rel (s.Same errands others) cell.binding? cell'.binding? := by
  cases h with
  | free => cases k; exact .none
  | blocked => cases k; exact .none
  | old b => cases k; exact .some (.old (hold b rfl))
  | made hb =>
    cases k with
    | made hc => exact .some (same_of_created hs hb hc)

/-- What stands as old was bound to begin with. -/
theorem get?_of_standing {name : String} (h : s.standing name errands = .old b) :
    s.table.get? name = some b := by
  rw [Table.get?_eq_cellOf, Standing.of_eq_old_iff.mp (Standing.eq_old_of_after h)]
  rfl

/-- A created binding was not there to begin with. -/
theorem Created.not_old (hs : s.Reachable) (h : Created errands s e b) (name : String) :
    s.table.get? name ≠ some b := by
  intro hb
  have hname : e.name = name := (h.name_eq hs.wellFormed).symm.trans (hs.name_eq hb)
  rw [← hname, h.free hs.wellFormed] at hb
  cases hb

/-- **A binding of a run** was there to begin with, or has one creator. -/
theorem exists_creator (hs : s.Reachable) {name : String}
    (hb : (carryOut errands s).table.get? name = some b) :
    (s.table.get? name = some b ∧ ∀ e, ¬Created errands s e b) ∨ ∃! e, Created errands s e b := by
  have hshows := (shows_carryOut hs.wellFormed errands).2 name
  rw [Table.get?_eq_cellOf] at hb
  cases hcell : (carryOut errands s).table.cellOf name with
  | empty => rw [hcell] at hb; cases hb
  | busy => rw [hcell] at hb; cases hb
  | bound found =>
    rw [hcell] at hb hshows
    cases hb
    generalize hst : s.standing name errands = st at hshows
    cases hshows with
    | old =>
      have hold := get?_of_standing hst
      exact .inl ⟨hold, fun e he => he.not_old hs name hold⟩
    | made he => exact .inr ⟨_, he, fun other hother => he.unique hs.wellFormed hother⟩

end

end Session

/-! ## Reorderings -/

/-- A list of the same errands, in which those for one name are in the same order. -/
structure Errand.Reorders (others errands : List (Errand σ)) : Prop where
  perm : others.Perm errands
  sameName : ∀ name, Errand.forName name others = Errand.forName name errands

/-- In both lists the same errands for its name come before an errand. -/
theorem Errand.Reorders.before_eq {before rest before' rest' : List (Errand σ)} {e : Errand σ}
    (h : Errand.Reorders (before' ++ e :: rest') (before ++ e :: rest))
    (hnodup : (before ++ e :: rest).Nodup) :
    Errand.forName e.name before' = Errand.forName e.name before := by
  have hnot : e ∉ before ∧ e ∉ rest := by
    obtain ⟨-, hrest, hapart⟩ := List.nodup_append.mp hnodup
    exact ⟨fun hmem => hapart e hmem e List.mem_cons_self rfl, (List.nodup_cons.mp hrest).1⟩
  have hsplit := h.sameName e.name
  rw [Errand.forName_append, Errand.forName_append, Errand.forName_cons_self,
    Errand.forName_cons_self] at hsplit
  have hbefore : e ∉ Errand.forName e.name before :=
    fun hmem => hnot.1 (Errand.mem_forName.mp hmem).1
  have hrest : e ∉ Errand.forName e.name rest := fun hmem => hnot.2 (Errand.mem_forName.mp hmem).1
  exact ((List.append_cons_inj_of_notMem hbefore hrest).mp hsplit.symm).1.symm

namespace Session

/-- Two lists of errands come to the same. -/
structure SameCourse (s : Session σ) (errands others : List (Errand σ)) : Prop where
  /-- An errand is answered alike, and visits the same: it asks its resolver in both lists or
  in neither. -/
  receipts : ∀ r ∈ receipts errands s, ∀ r' ∈ receipts others s,
    r.errand.ticket = r'.errand.ticket →
      Alike (s.Same errands others) r.outcome r'.outcome ∧ r.visits = r'.visits
  names : (carryOut errands s).table.names = (carryOut others s).table.names
  bindings : ∀ name, Option.Rel (s.Same errands others)
    ((carryOut errands s).table.get? name) ((carryOut others s).table.get? name)

/-- **The order of errands for different names does not matter.** -/
theorem order_independent {s : Session σ} {errands others : List (Errand σ)} (hs : s.Reachable)
    (htickets : (errands.map Errand.ticket).Nodup) (h : Errand.Reorders others errands) :
    s.SameCourse errands others := by
  have hwf := hs.wellFormed
  obtain ⟨hwf₁, hshows₁⟩ := shows_carryOut hwf errands
  obtain ⟨hwf₂, hshows₂⟩ := shows_carryOut hwf others
  have hbindings : ∀ name, Option.Rel (s.Same errands others)
      ((carryOut errands s).table.get? name) ((carryOut others s).table.get? name) := by
    intro name
    have hstanding : s.standing name others = s.standing name errands := by
      rw [standing, h.sameName, standing]
    rw [Table.get?_eq_cellOf, Table.get?_eq_cellOf]
    exact rel_of_shows hwf (fun b => get?_of_standing) (hshows₁ name) (hstanding ▸ hshows₂ name)
  refine ⟨?_, hwf₁.names_ext hwf₂ fun name => ?_, hbindings⟩
  · intro r hr r' hr' hticket
    obtain ⟨before, e, rest, rfl, rfl⟩ := mem_receipts_iff.mp hr
    obtain ⟨before', e', rest', rfl, rfl⟩ := mem_receipts_iff.mp hr'
    -- the ticket tells which errand it is
    have hmem' : e' ∈ before ++ e :: rest := h.perm.mem_iff.mp (by simp)
    obtain rfl : e = e' := List.inj_on_of_nodup_map htickets (by simp) hmem' hticket
    have hbefore := h.before_eq htickets.of_map
    have hsettles := settles_of_split hwf before rest e
    have hsettles' := settles_of_split hwf before' rest' e
    rw [standing, hbefore, ← standing] at hsettles'
    exact ⟨alike_of_answers hwf (fun b => get?_of_standing) hsettles.answer hsettles'.answer,
      hsettles.visits.trans hsettles'.visits.symm⟩
  · exact isSome_of_rel (hbindings name)

/-! ## Two orders of four errands -/

/-- The resolver answers at once, with a callable that does nothing. -/
def idleErrand (ticket : Nat) (name text : String) : Errand Unit where
  name := name
  text := text
  work _ := .answer (.ok fun _ world => (.returned (.ok .void), [], world))
  ticket := ticket
  result := .ok fun _ world => (.returned (.ok .void), [], world)
  alone _ _ := trivial
  answers _ _ _ := rfl

/-- The name `@old` is bound, and nothing else. -/
def oldBound : Session Unit :=
  History.run [.request "@old" "():VOID" (idleErrand 0 "@old" "():VOID").work] (.start ())

/-- The name `@f` is asked for twice, at first with a text that is no signature. -/
def fourErrands : List (Errand Unit) :=
  [idleErrand 0 "@f" "VOID", idleErrand 1 "@g" "():VOID", idleErrand 2 "@old" "():UINT64",
    idleErrand 3 "@f" "():VOID"]

/-- First `@f`, then the others the other way round. -/
def fourOthers : List (Errand Unit) :=
  [idleErrand 0 "@f" "VOID", idleErrand 3 "@f" "():VOID", idleErrand 2 "@old" "():UINT64",
    idleErrand 1 "@g" "():VOID"]

/-- The two orders come to the same, though the bindings have got different numbers. -/
theorem order_independent_of_four :
    oldBound.Reachable ∧ (fourErrands.map Errand.ticket).Nodup ∧
      Errand.Reorders fourOthers fourErrands ∧ oldBound.SameCourse fourErrands fourOthers ∧
      ((carryOut fourErrands oldBound).table.get? "@f").map Binding.id = some 2 ∧
      ((carryOut fourOthers oldBound).table.get? "@f").map Binding.id = some 1 := by
  have hs : oldBound.Reachable := .point (History.mem_trail_run _ _)
  have htickets : (fourErrands.map Errand.ticket).Nodup := by decide
  have hreorders : Errand.Reorders fourOthers fourErrands := by
    constructor
    case perm =>
      refine .cons _ ?_
      exact (List.reverse_perm [idleErrand 1 "@g" "():VOID", idleErrand 2 "@old" "():UINT64",
        idleErrand 3 "@f" "():VOID"])
    case sameName =>
      intro name
      by_cases hf : "@f" = name
      · subst hf
        rfl
      · by_cases hg : "@g" = name
        · subst hg
          rfl
        · simp [Errand.forName, List.filter_cons, fourErrands, fourOthers, idleErrand, hf, hg]
  exact ⟨hs, htickets, hreorders, order_independent hs htickets hreorders, by decide +kernel,
    by decide +kernel⟩

end Session

end NativeLink
