import NativeLink.Proofs.Interleaving.Nesting
import NativeLink.Proofs.Interleaving.Scene

/-!
# Threads that do not nest requests

Where plans make no requests, a thread has one request in flight at most, and it does
not matter which thread that is.  The state is then as good as two multisets: the
requests in flight, with their plans, and those still to be made.

`Play` is a step seen in this way.  Somebody asks, or one of the requests in flight goes
on, or leaves.  It keeps more than a step of the scene does, where plans do not show.
-/

namespace NativeLink

namespace Interleaving

variable {σ : Type}

/-- The requests in flight. -/
def State.calls (s : State σ) : Multiset (Call σ) := s.threads.flatMap Thread.calls

/-- The requests that are still to be made. -/
def State.pending (s : State σ) : Multiset (Request σ) := s.threads.flatMap Thread.todo

theorem flight_eq_map (s : State σ) : s.scene.flight = s.calls.map Call.outline := by
  simp only [State.scene, inFlight, State.calls, Multiset.map_coe, List.map_flatMap]

/-- A step of threads that do not nest requests. -/
inductive Play (s t : State σ) : Prop where
  | ask {request : Request σ} (pending : s.pending = request ::ₘ t.pending)
    (calls : t.calls = ⟨s.tickets, request, .entering⟩ ::ₘ s.calls) (world : t.world = s.world)
    (history : t.history = .asked s.tickets request.name request.text :: s.history)
  | go {call : Call σ} {rest : Multiset (Call σ)} {stage : Stage σ} {change : Change σ}
    (pending : s.pending = t.pending) (calls : s.calls = call ::ₘ rest)
    (next : t.calls = { call with stage := stage } ::ₘ rest)
    (shift : Shift s call stage change) (world : t.world = change.world)
    (history : t.history = change.moments.reverse ++ s.history)
  | leave {call : Call σ} {slot : Nat} {outcome : Outcome (Answer σ)}
    (pending : s.pending = t.pending) (calls : s.calls = call ::ₘ t.calls)
    (stage : call.stage = .leaving slot outcome) (world : t.world = s.world)
    (history : t.history = .answered call.ticket call.request.name outcome :: s.history)

/-- A thread that nests no requests has one in flight at most. -/
theorem Thread.Descends.alone {call : Call σ} {below : List (Call σ)} {todo : List (Request σ)}
    (h : Thread.Descends (fun _ _ => False) ⟨call :: below, todo⟩) : below = [] := by
  obtain ⟨-, hcalls, hchain⟩ := h
  cases below with
  | nil => rfl
  | cons lower below =>
    obtain ⟨hawaits, -⟩ := List.isChain_cons_cons.mp hchain
    exact (hawaits.below (hcalls lower (List.mem_cons_of_mem _ List.mem_cons_self))).elim

/-- **A step of threads that do not nest requests is a play.** -/
theorem play_of_step? {s t : State σ} {i : Nat} (h : step? s i = some t)
    (hs : ∀ thread ∈ s.threads, thread.Descends fun _ _ => False) : Play s t := by
  have hcalls : ∀ {old : Thread σ}, s.threads[i]? = some old → ∀ new : Thread σ,
      ∃ others : Multiset (Call σ), s.calls = old.calls + others ∧
        ((s.threads.set i new).flatMap Thread.calls : Multiset (Call σ)) = new.calls + others :=
    fun hold new => (flatMap_set hold Thread.calls).imp fun _ h => ⟨h.1, h.2 new⟩
  have hpending : ∀ {old : Thread σ}, s.threads[i]? = some old → ∀ new : Thread σ,
      ∃ others : Multiset (Request σ), s.pending = old.todo + others ∧
        ((s.threads.set i new).flatMap Thread.todo : Multiset (Request σ)) = new.todo + others :=
    fun hold new => (flatMap_set hold Thread.todo).imp fun _ h => ⟨h.1, h.2 new⟩
  cases move_of_step? h with
  | @start request todo thread =>
    obtain ⟨others, hold, hnew⟩ := hcalls thread ⟨[⟨s.tickets, request, .entering⟩], todo⟩
    obtain ⟨waiting, hbefore, hafter⟩ :=
      hpending thread ⟨[⟨s.tickets, request, .entering⟩], todo⟩
    refine .ask (hbefore.trans ?_) (hnew.trans ?_) rfl rfl
    · rw [← Multiset.cons_coe, Multiset.cons_add]
      exact congrArg (request ::ₘ ·) hafter.symm
    · rw [hold, ← Multiset.cons_coe, Multiset.cons_add]
  | @nest call below todo slot signature name text work next thread stage =>
    have hthread := hs _ (List.mem_of_getElem? thread)
    have hplan := (hthread.calls call List.mem_cons_self).rest _ _ _ stage
    exact hplan.1.elim
  | @shift call below todo stage change thread shift =>
    obtain ⟨others, hold, hnew⟩ := hcalls thread ⟨{ call with stage := stage } :: below, todo⟩
    obtain ⟨waiting, hbefore, hafter⟩ :=
      hpending thread ⟨{ call with stage := stage } :: below, todo⟩
    rw [← Multiset.cons_coe, Multiset.cons_add] at hold hnew
    exact .go (hbefore.trans hafter.symm) hold hnew shift rfl rfl
  | @leave call below todo slot outcome thread stage =>
    obtain rfl := (hs _ (List.mem_of_getElem? thread)).alone
    obtain ⟨others, hold, hnew⟩ := hcalls thread ⟨deliver outcome [], todo⟩
    obtain ⟨waiting, hbefore, hafter⟩ := hpending thread ⟨deliver outcome [], todo⟩
    refine .leave (hbefore.trans hafter.symm) (hold.trans ?_) stage rfl rfl
    rw [← Multiset.cons_coe, Multiset.cons_add]
    refine congrArg (call ::ₘ ·) (Eq.trans ?_ hnew.symm)
    rfl

end Interleaving

end NativeLink
