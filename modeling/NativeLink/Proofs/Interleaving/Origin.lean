import NativeLink.Proofs.Interleaving.Moves
import NativeLink.Proofs.Session.Origin

/-!
# Where bindings come from, on many threads

However threads are interleaved, every binding in the table and every binding that is
answered comes from a callable that was offered for its name and its signature
(`offered_of_reaches`).  A request in flight carries what is needed for that: the plan
it still has to run yields only what is offered, under a signature that was read, and a
binding it is about to hand on is offered already.

Unlike the agreement of answers this needs nothing of the order of the steps, so it is
an invariant of single moves.
-/

namespace NativeLink

variable {σ : Type} {offer : Offer σ}

/-- The plans of a request yield only what is offered for its name. -/
def Request.Yields (offer : Offer σ) (request : Request σ) : Prop :=
  ∀ signature, (request.work signature).Yields offer request.name signature

namespace Interleaving

/-- What a request in flight will bind is offered, and so is what it hands on. -/
structure Call.Offered (offer : Offer σ) (call : Call σ) : Prop where
  request : call.request.Yields offer
  running : ∀ {slot signature rest}, call.stage = .running slot signature rest →
    (∃ text, Signature.parse text = .ok signature) ∧
      rest.Yields offer call.request.name signature
  leaving : ∀ {slot b}, call.stage = .leaving slot (.returned (.ok b)) → b.Offered offer

/-- The same of a thread. -/
structure Thread.Offered (offer : Offer σ) (thread : Thread σ) : Prop where
  todo : ∀ request ∈ thread.todo, request.Yields offer
  calls : ∀ call ∈ thread.calls, call.Offered offer

/-- All bindings are offered: in the table, in the hands of requests, and in answers. -/
structure State.Offered (offer : Offer σ) (s : State σ) : Prop where
  table : s.table.Offered offer
  threads : ∀ thread ∈ s.threads, thread.Offered offer
  answers : ∀ {ticket name b},
    .answered ticket name (.returned (.ok b)) ∈ s.history → b.Offered offer

theorem Call.Offered.entering {request : Request σ} (h : request.Yields offer) (ticket : Nat) :
    Call.Offered offer ⟨ticket, request, .entering⟩ :=
  ⟨h, nofun, nofun⟩

/-- What is left of a plan when its request has been answered is part of the plan, or hands a
panic on. -/
theorem resume_yields {name : String} {signature : Signature} {p : Plan σ}
    (h : p.Yields offer name signature) (outcome : Outcome (Answer σ)) :
    (resume p outcome).Yields offer name signature := by
  unfold resume
  split
  · exact h.2 _
  · trivial
  · trivial

theorem deliver_offered {below : List (Call σ)} (h : ∀ call ∈ below, call.Offered offer)
    (outcome : Outcome (Answer σ)) : ∀ call ∈ deliver outcome below, call.Offered offer := by
  cases below with
  | nil => exact h
  | cons lower below =>
    obtain ⟨hlower, hrest⟩ := List.forall_mem_cons.mp h
    simp only [deliver]
    split
    · next slot signature rest hstage =>
      obtain ⟨hparsed, hplan⟩ := hlower.running hstage
      refine List.forall_mem_cons.mpr ⟨⟨hlower.request, fun hrun => ?_, nofun⟩, hrest⟩
      cases hrun
      exact ⟨hparsed, resume_yields hplan outcome⟩
    · exact h

/-- **A request that goes on keeps to what is offered**, and gives no answer yet. -/
theorem Shift.offered {s : State σ} {call : Call σ} {stage : Stage σ} {c : Change σ}
    (h : Shift s call stage c) (ht : s.table.Offered offer) (hcall : call.Offered offer) :
    c.table.Offered offer ∧ ({ call with stage := stage } : Call σ).Offered offer ∧
      ∀ ticket name outcome, .answered ticket name outcome ∉ c.moments := by
  have hidle : ∀ {stage : Stage σ}, (∀ slot signature rest, stage ≠ .running slot signature rest) →
      (∀ slot b, stage ≠ .leaving slot (.returned (.ok b))) →
      ({ call with stage := stage } : Call σ).Offered offer :=
    fun hr hl => ⟨hcall.request, fun h => absurd h (hr _ _ _), fun h => absurd h (hl _ _)⟩
  have hruns : ∀ {slot : Nat} {signature : Signature} {rest : Plan σ},
      (∃ text, Signature.parse text = .ok signature) →
      rest.Yields offer call.request.name signature →
      ({ call with stage := .running slot signature rest } : Call σ).Offered offer := by
    intro slot signature rest hparsed hrest
    refine ⟨hcall.request, fun h => ?_, nofun⟩
    cases h
    exact ⟨hparsed, hrest⟩
  have hleaves : ∀ {slot : Nat} {b : Binding σ}, b.Offered offer →
      ({ call with stage := .leaving slot (.returned (.ok b)) } : Call σ).Offered offer := by
    intro slot b hb
    refine ⟨hcall.request, nofun, fun h => ?_⟩
    cases h
    exact hb
  cases h with
  | enter stage => exact ⟨ht.acquire _, hidle (by simp) (by simp), by simp [State.altered]⟩
  | miss stage => exact ⟨ht, hidle (by simp) (by simp), by simp [State.still]⟩
  | hit stage cell => exact ⟨ht, hleaves (ht _ _ cell), by simp [State.still]⟩
  | begin stage cell =>
    exact ⟨ht.unbind _ rfl, hidle (by simp) (by simp), by simp [State.altered]⟩
  | accept stage text =>
    exact ⟨ht, hruns ⟨_, text⟩ (hcall.request _), by simp [State.still]⟩
  | reject stage text =>
    exact ⟨ht.unbind _ rfl, hidle (by simp) (by simp), by simp [State.altered]⟩
  | bind stage =>
    obtain ⟨⟨text, hparsed⟩, hplan⟩ := hcall.running stage
    have hmade := Binding.offered_make hparsed (hplan _ rfl) s.fresh
    refine ⟨ht.setCell _ fun b hb => ?_, hleaves hmade, by simp⟩
    cases hb
    exact hmade
  | refuse stage => exact ⟨ht.unbind _ rfl, hidle (by simp) (by simp), by simp [State.altered]⟩
  | panic stage => exact ⟨ht.unbind _ rfl, hidle (by simp) (by simp), by simp [State.altered]⟩
  | tell stage =>
    obtain ⟨hparsed, hplan⟩ := hcall.running stage
    exact ⟨ht, hruns hparsed hplan, by simp [State.still]⟩
  | step stage =>
    obtain ⟨hparsed, hplan⟩ := hcall.running stage
    exact ⟨ht, hruns hparsed (hplan _), by simp⟩
  | look stage =>
    obtain ⟨hparsed, hplan⟩ := hcall.running stage
    exact ⟨ht, hruns hparsed (hplan _), by simp [State.still]⟩
  | discard stage =>
    exact ⟨ht.discardUnbound _ _, hidle (by simp) (by simp), by simp [State.altered]⟩

/-- **Every move keeps all bindings offered.** -/
theorem State.Offered.step? {s t : State σ} {i : Nat} (hs : s.Offered offer)
    (h : step? s i = some t) : t.Offered offer := by
  have hset : ∀ {new : Thread σ}, new.Offered offer →
      ∀ thread ∈ s.threads.set i new, thread.Offered offer := by
    intro new hnew thread hthread
    rcases List.mem_or_eq_of_mem_set hthread with hold | rfl
    · exact hs.threads thread hold
    · exact hnew
  have hthis : ∀ {thread : Thread σ}, s.threads[i]? = some thread → thread.Offered offer :=
    fun hthread => hs.threads _ (List.mem_of_getElem? hthread)
  have hasked : ∀ {k : Nat} {request text : String} {ticket : Nat} {name : String}
      {b : Binding σ}, .answered ticket name (.returned (.ok b)) ∈
        [Moment.asked k request text].reverse ++ s.history → b.Offered offer := by
    intro k request text ticket name b hb
    rcases List.mem_append.mp hb with hb | hb
    · simp at hb
    · exact hs.answers hb
  cases move_of_step? h with
  | @start request todo thread =>
    obtain ⟨htodo, -⟩ := hthis thread
    obtain ⟨hrequest, hrest⟩ := List.forall_mem_cons.mp htodo
    exact ⟨hs.table, hset ⟨hrest, List.forall_mem_singleton.mpr (.entering hrequest _)⟩,
      hasked⟩
  | @nest call below todo slot signature name text work next thread stage =>
    obtain ⟨htodo, hcalls⟩ := hthis thread
    obtain ⟨-, hplan⟩ := (hcalls call List.mem_cons_self).running stage
    have hnested : Request.Yields offer ⟨name, text, work⟩ := hplan.1
    exact ⟨hs.table, hset ⟨htodo, List.forall_mem_cons.mpr ⟨.entering hnested _, hcalls⟩⟩,
      hasked⟩
  | @shift call below todo stage change thread shift =>
    obtain ⟨htodo, hcalls⟩ := hthis thread
    obtain ⟨hcall, hbelow⟩ := List.forall_mem_cons.mp hcalls
    obtain ⟨htable, hnew, hmoments⟩ := shift.offered hs.table hcall
    refine ⟨htable, hset ⟨htodo, List.forall_mem_cons.mpr ⟨hnew, hbelow⟩⟩, fun hb => ?_⟩
    rcases List.mem_append.mp hb with hb | hb
    · exact absurd (List.mem_reverse.mp hb) (hmoments _ _ _)
    · exact hs.answers hb
  | @leave call below todo slot outcome thread stage =>
    obtain ⟨htodo, hcalls⟩ := hthis thread
    obtain ⟨hcall, hbelow⟩ := List.forall_mem_cons.mp hcalls
    refine ⟨hs.table.release slot, hset ⟨htodo, deliver_offered hbelow outcome⟩, fun hb => ?_⟩
    rcases List.mem_append.mp hb with hb | hb
    · cases List.mem_singleton.mp hb
      exact hcall.leaving stage
    · exact hs.answers hb

/-- **Whatever is answered on any thread is offered**, if the plans of all requests yield only what
is offered. -/
theorem offered_of_reaches {world : σ} {threads : List (List (Request σ))} {s : State σ}
    (h : Reaches (.start world threads) s)
    (hyields : ∀ requests ∈ threads, ∀ request ∈ requests, request.Yields offer) :
    s.Offered offer := by
  generalize hstart : State.start world threads = s₀ at h
  induction h with
  | refl =>
    subst hstart
    refine ⟨Table.offered_empty, fun thread hthread => ?_, nofun⟩
    obtain ⟨requests, hrequests, rfl⟩ := List.mem_map.mp hthread
    exact ⟨hyields requests hrequests, nofun⟩
  | tail _ hstep ih => exact ih.step? hstep

end Interleaving

end NativeLink
