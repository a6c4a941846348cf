import Mathlib.Data.List.Chain
import NativeLink.Proofs.Interleaving.Moves

/-!
# Requests inside requests

The plan of a request may make another request, and then waits for its answer.  So the
requests on a thread form a chain, the innermost on top, and each but the topmost waits
for the one above it.

Names are ordered by a relation `r`, and plans respect it: while they resolve a name
they request only names below it.  `Plan.Below` says this of a plan and of all plans it
may request, whatever they learn, and also that none of them is stuck.

`Thread.Descends` is what then holds of a thread.  The chain it forms descends, and no
request on it ever hands on that its plan is stuck.  The kinds of move keep it
(`descends_of_step?`).
-/

namespace NativeLink

variable {σ : Type}

/-- While it resolves a name the plan requests only names below it, and so do the plans it
requests; and it comes to an end. -/
def Plan.Below (r : String → String → Prop) : String → Plan σ → Prop
  | _, .answer _ => True
  | _, .panic _ => True
  | _, .stuck => False
  | name, .tell _ next => Below r name next
  | name, .step _ next => ∀ world, Below r name (next world)
  | name, .look _ next => ∀ binding, Below r name (next binding)
  | name, .request other _ work next =>
    r other name ∧ (∀ signature, Below r other (work signature)) ∧
      ∀ answer, Below r name (next answer)

/-- The plans of a request descend. -/
def Request.Descends (r : String → String → Prop) (request : Request σ) : Prop :=
  ∀ signature, (request.work signature).Below r request.name

namespace Interleaving

variable {r : String → String → Prop}

/-- A request in flight whose plan descends from here on. -/
structure Call.Descends (r : String → String → Prop) (call : Call σ) : Prop where
  request : call.request.Descends r
  rest : ∀ slot signature rest, call.stage = .running slot signature rest →
    rest.Below r call.request.name
  ends : ∀ slot, call.stage ≠ .leaving slot .stuck

/-- A request waits for the answer to another one, which its plan has made. -/
def Call.Awaits (below above : Call σ) : Prop :=
  ∃ slot signature text work next,
    below.stage = .running slot signature (.request above.request.name text work next)

/-- The requests of a thread, in flight or to be made. -/
structure Thread.Descends (r : String → String → Prop) (thread : Thread σ) : Prop where
  todo : ∀ request ∈ thread.todo, request.Descends r
  calls : ∀ call ∈ thread.calls, call.Descends r
  chain : thread.calls.IsChain fun above below => below.Awaits above

/-- The name of a request that is waited for lies below that of the one that waits. -/
theorem Call.Awaits.below {above below : Call σ} (h : below.Awaits above)
    (hbelow : below.Descends r) : r above.request.name below.request.name := by
  obtain ⟨slot, signature, text, work, next, hstage⟩ := h
  have hplan := hbelow.rest slot signature _ hstage
  exact hplan.1

/-- A new request on a thread. -/
theorem Call.descends_entering (request : Request σ) (h : request.Descends r) (ticket : Nat) :
    Call.Descends r ⟨ticket, request, .entering⟩ :=
  ⟨h, by simp, by simp⟩

/-- **A request that goes on to its next stage still descends.** -/
theorem Shift.descends {s : State σ} {call : Call σ} {stage : Stage σ} {c : Change σ}
    (h : Shift s call stage c) (hcall : call.Descends r) :
    Call.Descends r { call with stage := stage } := by
  -- of a plan that runs on, what is left is part of what there was
  have hrest : ∀ {slot : Nat} {signature : Signature} {rest : Plan σ},
      rest.Below r call.request.name →
      Call.Descends r { call with stage := .running slot signature rest } := by
    intro slot signature rest hbelow
    refine ⟨hcall.request, fun i t p hp => ?_, by simp⟩
    cases hp
    exact hbelow
  cases h with
  | accept stage text => exact hrest (hcall.request _)
  | tell stage =>
    have hplan := hcall.rest _ _ _ stage
    exact hrest hplan
  | step stage =>
    have hplan := hcall.rest _ _ _ stage
    exact hrest (hplan _)
  | look stage =>
    have hplan := hcall.rest _ _ _ stage
    exact hrest (hplan _)
  | _ => exact ⟨hcall.request, by simp, by simp⟩

/-- **A request that is handed an answer goes on with its plan**, or hands the panic on. -/
theorem deliver_descends {above : Call σ} {slot : Nat} {outcome : Outcome (Answer σ)}
    (habove : above.Descends r) (hstage : above.stage = .leaving slot outcome)
    {below : List (Call σ)} (hcalls : ∀ call ∈ below, call.Descends r)
    (hchain : (above :: below).IsChain fun above below => below.Awaits above) :
    (∀ call ∈ deliver outcome below, call.Descends r) ∧
      (deliver outcome below).IsChain fun above below => below.Awaits above := by
  cases below with
  | nil => exact ⟨by simp [deliver], .nil⟩
  | cons lower below =>
    obtain ⟨⟨i, signature, text, work, next, hlower⟩, hrest⟩ := List.isChain_cons_cons.mp hchain
    have hplan := (hcalls lower List.mem_cons_self).rest _ _ _ hlower
    have hresume : (resume (.request above.request.name text work next) outcome).Below r
        lower.request.name := by
      cases outcome with
      | returned answer => exact hplan.2.2 answer
      | panicked cause => trivial
      | stuck => exact absurd hstage (habove.ends slot)
    have hdeliver : deliver outcome (lower :: below) = { lower with
        stage := .running i signature
          (resume (.request above.request.name text work next) outcome) } :: below := by
      simp only [deliver, hlower]
    rw [hdeliver]
    refine ⟨fun call hcall => ?_, ?_⟩
    · rcases List.mem_cons.mp hcall with rfl | hcall
      · refine ⟨(hcalls lower List.mem_cons_self).request, fun j t p hp => ?_, by simp⟩
        cases hp
        exact hresume
      · exact hcalls call (List.mem_cons_of_mem _ hcall)
    · -- the ones below wait for a name, and that has not changed
      cases below with
      | nil => exact .singleton _
      | cons lowest below =>
        obtain ⟨hawaits, hchain⟩ := List.isChain_cons_cons.mp hrest
        exact List.isChain_cons_cons.mpr ⟨hawaits, hchain⟩

/-- The chain does not depend on the stage of the topmost request. -/
theorem chain_of_top {call : Call σ} {stage : Stage σ} {below : List (Call σ)}
    (h : (call :: below).IsChain fun above below => below.Awaits above) :
    ({ call with stage := stage } :: below).IsChain fun above below => below.Awaits above := by
  cases below with
  | nil => exact .singleton _
  | cons lower below =>
    obtain ⟨hawaits, hchain⟩ := List.isChain_cons_cons.mp h
    exact List.isChain_cons_cons.mpr ⟨hawaits, hchain⟩

/-- **Every move of a thread keeps it descending**, and concerns no other thread. -/
theorem descends_of_step? {s t : State σ} {i : Nat} (h : step? s i = some t)
    (hs : ∀ thread ∈ s.threads, thread.Descends r) : ∀ thread ∈ t.threads, thread.Descends r := by
  have hset : ∀ {new : Thread σ}, new.Descends r →
      ∀ thread ∈ s.threads.set i new, thread.Descends r := by
    intro new hnew thread hthread
    rcases List.mem_or_eq_of_mem_set hthread with hold | rfl
    · exact hs thread hold
    · exact hnew
  have hthis : ∀ {thread : Thread σ}, s.threads[i]? = some thread → thread.Descends r :=
    fun hthread => hs _ (List.mem_of_getElem? hthread)
  cases move_of_step? h with
  | @start request todo thread =>
    obtain ⟨htodo, -, -⟩ := hthis thread
    refine hset ⟨fun q hq => htodo q (List.mem_cons_of_mem _ hq), fun call hcall => ?_,
      .singleton _⟩
    rw [List.mem_singleton.mp hcall]
    exact Call.descends_entering request (htodo request List.mem_cons_self) _
  | @nest call below todo slot signature name text work next thread stage =>
    obtain ⟨htodo, hcalls, hchain⟩ := hthis thread
    have hplan := (hcalls call List.mem_cons_self).rest _ _ _ stage
    refine hset ⟨htodo, fun c hc => ?_, ?_⟩
    · rcases List.mem_cons.mp hc with rfl | hc
      · exact Call.descends_entering ⟨name, text, work⟩ hplan.2.1 _
      · exact hcalls c hc
    · exact List.isChain_cons_cons.mpr ⟨⟨slot, signature, text, work, next, stage⟩, hchain⟩
  | @shift call below todo stage change thread shift =>
    obtain ⟨htodo, hcalls, hchain⟩ := hthis thread
    refine hset ⟨htodo, fun c hc => ?_, chain_of_top hchain⟩
    rcases List.mem_cons.mp hc with rfl | hc
    · exact shift.descends (hcalls call List.mem_cons_self)
    · exact hcalls c (List.mem_cons_of_mem _ hc)
  | @leave call below todo slot outcome thread stage =>
    obtain ⟨htodo, hcalls, hchain⟩ := hthis thread
    obtain ⟨hnew, hlink⟩ := deliver_descends (hcalls call List.mem_cons_self) stage
      (fun c hc => hcalls c (List.mem_cons_of_mem _ hc)) hchain
    exact hset ⟨htodo, hnew, hlink⟩

/-- **Threads that are to make descending requests descend for ever.** -/
theorem descends_of_reaches {world : σ} {threads : List (List (Request σ))} {s : State σ}
    (h : Reaches (.start world threads) s)
    (hdescends : ∀ requests ∈ threads, ∀ request ∈ requests, request.Descends r) :
    ∀ thread ∈ s.threads, thread.Descends r := by
  generalize hstart : State.start world threads = s₀ at h
  induction h with
  | refl =>
    subst hstart
    intro thread hthread
    obtain ⟨requests, hrequests, rfl⟩ := List.mem_map.mp hthread
    exact ⟨hdescends requests hrequests, by simp, .nil⟩
  | tail _ hstep ih => exact descends_of_step? hstep ih

/-! ## Names along a chain -/

/-- Every request under the topmost one is for a name above it. -/
theorem Thread.Descends.transGen {call : Call σ} {below : List (Call σ)} {todo : List (Request σ)}
    (h : Thread.Descends r ⟨call :: below, todo⟩) {lower : Call σ} (hlower : lower ∈ below) :
    Relation.TransGen r call.request.name lower.request.name := by
  obtain ⟨-, hcalls, hchain⟩ := h
  induction below generalizing call with
  | nil => cases hlower
  | cons next below ih =>
    obtain ⟨hawaits, hrest⟩ := List.isChain_cons_cons.mp hchain
    have hfirst := hawaits.below (hcalls next (List.mem_cons_of_mem _ List.mem_cons_self))
    rcases List.mem_cons.mp hlower with rfl | hlower
    · exact .single hfirst
    · exact .head hfirst (ih hlower (fun c hc => hcalls c (List.mem_cons_of_mem _ hc)) hrest)

end Interleaving

end NativeLink
