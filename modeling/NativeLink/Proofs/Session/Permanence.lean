import NativeLink.Proofs.Session.Trail

/-!
# Bindings are permanent

Once a look-up finds a name bound, it finds the same binding at every later point of the
history, inside the resolvers of other names and after panics too.  From then on a request
for the name is a mere look-up: it answers that binding whatever text comes with it, and
all it leaves behind is a warning if the text is not the signature of the binding.  No
resolver is asked, so nothing that the resolver would have requested is visited.

That a binding stays is a fact about single changes of the table (`Change.get?`), carried
along the trail by `History.run_leads`; what a request answers at a point is then read off
the session there (`Session.request_of_get?`).
-/

namespace NativeLink

variable {σ : Type}

namespace Session

section

variable {s : Session σ} {name : String} {b : Binding σ}

theorem cell_acquire_of_get? (hb : s.table.get? name = some b) :
    (s.table.acquire name).2.cell (s.table.acquire name).1 = .bound b := by
  obtain ⟨i, hp, hc⟩ := Table.get?_eq_some_iff.mp hb
  rw [Table.cell_acquire, Table.acquire_of_some hp, hc]

/-- **A request for a bound name** answers its binding, and changes nothing. -/
theorem request_of_get? (hb : s.table.get? name = some b) (text : String)
    (resolve : Signature → Act σ (Except ResolveError (Callable σ))) :
    request name text resolve s = (.returned (.ok b), s.tell (b.conflict text)) := by
  obtain ⟨i, hp, -⟩ := Table.get?_eq_some_iff.mp hb
  have hleft : request name text resolve s = _ :=
    (Requested.hit (cell_acquire_of_get? hb)).request_eq
  rwa [Table.release_acquire hp] at hleft

theorem visits_of_get? (hb : s.table.get? name = some b) (text : String)
    (resolve : Signature → Act σ (Except ResolveError (Callable σ)))
    (inner : Signature → Session σ → List Visit) :
    visits name text resolve inner s = [.found name] :=
  visits_of_bound (cell_acquire_of_get? hb)

end

end Session

namespace History

section

variable {h : History σ} {start s t : Session σ}

/-- The names that change along a history may be any. -/
theorem leads (h : History σ) (hstart : start.table.WellFormed) :
    Session.Leads (fun _ => True) start (h.trail start) (h.run start) :=
  h.run_leads hstart fun _ _ => trivial

/-- The session a history leaves is its last point. -/
theorem mem_trail_run (h : History σ) (s : Session σ) : h.run s ∈ h.trail s := by
  induction h generalizing s with
  | nil => exact List.mem_cons_self
  | cons use rest ih => exact List.mem_append_right _ (ih _)

theorem wellFormed_of_mem_trail (hstart : start.table.WellFormed) (hs : s ∈ h.trail start) :
    s.table.WellFormed :=
  ((Session.leads_iff.mp (h.leads hstart)).1 s hs).1.wellFormed hstart

/-- Later points evolve out of earlier ones. -/
theorem evolves_of_trail (hstart : start.table.WellFormed) {before after : List (Session σ)}
    (split : h.trail start = before ++ s :: after) (ht : t ∈ after) :
    s.table.Evolves (fun _ => True) t.table := by
  have hpairs := (Session.leads_iff.mp (h.leads hstart)).2.1
  rw [split, List.pairwise_append, List.pairwise_cons] at hpairs
  exact hpairs.2.1.1 t ht

end

/-- **A binding is permanent.**  If a look-up finds it at one point of a history, look-ups find it
from then on.  Every request for its name answers it, under any text; it leaves the session as it
is, but for a warning, and whatever its resolver would have done does not happen. -/
theorem binding_permanent {world : σ} {h : History σ} {before after : List (Session σ)}
    {s : Session σ} (split : h.trail (.start world) = before ++ s :: after) {name : String}
    {b : Binding σ} (hb : s.table.get? name = some b) :
    ∀ t ∈ s :: after, t.table.get? name = some b ∧
      ∀ text resolve inner,
        Session.request name text resolve t = (.returned (.ok b), t.tell (b.conflict text)) ∧
          Session.visits name text resolve inner t = [.found name] := by
  intro t ht
  have hs : s ∈ h.trail (.start world) := by simp [split]
  have hwf := wellFormed_of_mem_trail Table.wellFormed_empty hs
  have hget : t.table.get? name = some b := by
    rcases List.mem_cons.mp ht with rfl | ht
    · exact hb
    · exact (evolves_of_trail Table.wellFormed_empty split ht).get? hwf hb
  exact ⟨hget, fun text resolve inner => ⟨Session.request_of_get? hget text resolve,
    Session.visits_of_get? hget text resolve inner⟩⟩

/-! ## A name that is asked for in passing -/

/-- Binds `@f`, asks for it under another signature while `@g` is being resolved and then fails
with a panic, and at last asks for it with a text that is no signature. -/
def inPassing : History Unit :=
  [.request "@f" "(POINTER):VOID" fun _ =>
      .answer (.ok fun _ world => (.returned (.ok .void), [], world)),
    .request "@g" "():VOID" fun _ =>
      .request "@f" "():UINT64" (fun _ => .panic (.plain "asked again")) fun _ =>
        .panic (.plain "given up"),
    .request "@f" "POINTER->VOID" fun _ => .panic (.plain "asked again")]

/-- The third point is the first at which `@f` is bound; there are four later ones. -/
theorem binding_permanent_inPassing :
    ∃ s b, (inPassing.trail (.start ()))[2]? = some s ∧ s.table.get? "@f" = some b ∧
      b.signature = ⟨[.pointer], .void⟩ ∧ ((inPassing.trail (.start ())).drop 3).length = 4 ∧
      ∀ t ∈ (inPassing.trail (.start ())).drop 3, t.table.get? "@f" = some b ∧
        ∀ resolve, Session.request "@f" "POINTER->VOID" resolve t =
          (.returned (.ok b), t.tell (b.conflict "POINTER->VOID")) := by
  have hsignature : (((inPassing.trail (.start ()))[2]?).bind fun s => s.table.get? "@f").map
      Binding.signature = some ⟨[.pointer], .void⟩ := by decide +kernel
  obtain ⟨b, hb, hsignature⟩ := Option.map_eq_some_iff.mp hsignature
  obtain ⟨s, hs, hget⟩ := Option.bind_eq_some_iff.mp hb
  obtain ⟨hlt, hat⟩ := List.getElem?_eq_some_iff.mp hs
  have split : inPassing.trail (.start ()) =
      (inPassing.trail (.start ())).take 2 ++ s :: (inPassing.trail (.start ())).drop 3 := by
    rw [← hat, ← List.drop_eq_getElem_cons, List.take_append_drop]
  refine ⟨s, b, hs, hget, hsignature, by decide +kernel, fun t ht => ?_⟩
  obtain ⟨hkept, hrequest⟩ := binding_permanent split hget t (List.mem_cons_of_mem _ ht)
  exact ⟨hkept, fun resolve => (hrequest "POINTER->VOID" resolve fun _ _ => []).1⟩

end History

end NativeLink
