import NativeLink.Proofs.Client.Deeds
import NativeLink.Proofs.Client.Likeness

/-!
# Contexts have nothing to do with each other

What is bound in a context makes no difference to a command that is about another one, or about
none.  To say so, give the context any other table, or none at all, and see that the client is told
the same from then on, as long as it leaves this context alone (`responses_of_apart`).  The other
contexts, the world and the log are the same as well, so there is no hit and no warning in any of
them that comes of a name bound elsewhere.

To drop a context is to give it no table.
-/

namespace NativeLink

variable {σ : Type}

/-- The contexts with another table in the place `i`, or with none. -/
def Contexts.replace (c : Contexts σ) (i : Nat) (table : Option (Table σ)) : Contexts σ :=
  { c with tables := c.tables.set i table }

/-- The contexts differ in the table of the context `i` at most. -/
def Contexts.Apart (i : Nat) (c d : Contexts σ) : Prop := ∃ table, d = c.replace i table

namespace Contexts

variable {c d : Contexts σ} {i j : Nat} {table : Option (Table σ)}

theorem Apart.refl (c : Contexts σ) (i : Nat) : Apart i c c := by
  by_cases hi : i < c.tables.length
  · exact ⟨c.tables[i], by rw [replace, List.set_getElem_self]⟩
  · exact ⟨none, by rw [replace, List.set_eq_of_length_le (Nat.le_of_not_lt hi)]⟩

/-- A context that is added afterwards makes no difference either. -/
theorem add_replace (c : Contexts σ) (i : Nat) (table : Option (Table σ)) :
    c.add.1 = (c.replace i table).add.1 ∧ Apart i c.add.2 (c.replace i table).add.2 := by
  refine ⟨List.length_set.symm, ?_⟩
  by_cases hi : i < c.tables.length
  · exact ⟨table, by simp only [add, replace, List.set_append_left _ _ hi]⟩
  · have hsame : c.replace i table = c := by
      rw [replace, List.set_eq_of_length_le (Nat.le_of_not_lt hi)]
    rw [hsame]
    exact .refl _ i

theorem table?_replace (hne : i ≠ j) : (c.replace i table).table? j = c.table? j := by
  rw [table?, table?, replace, List.getElem?_set_ne hne]

theorem replace_leave (hne : i ≠ j) (s : Session σ) :
    (c.replace i table).leave j s = (c.leave j s).replace i table := by
  simp only [leave, replace, List.set_comm _ _ hne]

/-- What is done in a context does not depend on the others. -/
theorem within_replace {α : Type} (hne : i ≠ j) (act : Act σ α) :
    Agree (Apart i) (c.within j act) ((c.replace i table).within j act) := by
  cases ht : c.table? j with
  | none =>
    rw [within_eq_of_none ht, within_eq_of_none ((table?_replace hne).trans ht)]
    exact ⟨rfl, table, rfl⟩
  | some t =>
    rw [within_eq ht, within_eq ((table?_replace hne).trans ht)]
    exact ⟨rfl, table, replace_leave hne _⟩

end Contexts

namespace Client

variable {c d : Client σ} {i : Nat}

/-- The client with another table in one of its contexts. -/
def replace (c : Client σ) (i : Nat) (table : Option (Table σ)) : Client σ :=
  { c with contexts := c.contexts.replace i table }

/-- A command that is not about the context does the same without it. -/
theorem matches_of_apart (alike : Alike (Contexts.Apart i) c d) {command : Command σ}
    (elsewhere : command.context? ≠ some i) : Matches (Contexts.Apart i) c d command := by
  obtain ⟨table, hd⟩ := alike.contexts
  have hne : ∀ {j}, command.context? = some j → i ≠ j := by
    rintro j hj rfl
    exact elsewhere hj
  have hcalled : ∀ call, c.call? command = some call → ∃ reply events left left',
      call.binding.callable call.args c.contexts.world = (reply, events, left) ∧
      call.binding.callable call.args d.contexts.world = (reply, events, left') ∧
      ∀ told, (Contexts.Apart i) { c.contexts with world := left, log := c.contexts.log ++ told }
        { d.contexts with world := left', log := d.contexts.log ++ told } := by
    intro call _
    rw [hd]
    exact ⟨_, _, _, _, rfl, rfl, fun told => ⟨table, rfl⟩⟩
  cases command with
  | add =>
    unfold Matches
    rw [hd]
    exact Contexts.add_replace _ i table
  | drop j =>
    unfold Matches
    rw [hd]
    exact ⟨table, by simp only [Contexts.drop, Contexts.replace, List.set_comm _ _ (hne rfl)]⟩
  | resolve j name text =>
    unfold Matches
    rw [hd]
    exact Contexts.within_replace (hne rfl) _
  | find j name =>
    unfold Matches
    simp only [hd, Contexts.table?_replace (hne rfl)]
  | construct j o =>
    unfold Matches
    rw [hd]
    exact Contexts.within_replace (hne rfl) _
  | probe j =>
    unfold Matches
    rw [hd]
    exact Contexts.within_replace (hne rfl) _
  | change f =>
    unfold Matches
    rw [hd]
    exact ⟨table, rfl⟩
  | make | copy => trivial
  | run | invoke | call => exact hcalled

/-- **What is bound in a context makes no difference to commands that leave it alone.** -/
theorem responses_of_apart (alike : Alike (Contexts.Apart i) c d) {later : List (Command σ)}
    (elsewhere : ∀ command ∈ later, command.context? ≠ some i) :
    d.responses later = c.responses later ∧
      Alike (Contexts.Apart i) (c.obeyAll later) (d.obeyAll later) := by
  induction later generalizing c d with
  | nil => exact ⟨rfl, alike⟩
  | cons command later ih =>
    obtain ⟨hsame, halike⟩ :=
      alike.obey (matches_of_apart alike (elsewhere command List.mem_cons_self))
    obtain ⟨hrest, hafter⟩ := ih halike fun other hother =>
      elsewhere other (List.mem_cons_of_mem _ hother)
    exact ⟨congrArg₂ (fun response rest => [response] ++ rest) hsame.symm hrest, hafter⟩

end Client

end NativeLink
