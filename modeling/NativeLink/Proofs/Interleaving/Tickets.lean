import NativeLink.Proofs.Interleaving.Plays

/-!
# The ticket of a request

Whatever happens is recorded under the ticket of one request.  `account k history` is
what the history has under the ticket `k`, in the order it happened: the story of one
request, with everything left out that happened to others in between.

For this to be a story of one request, tickets must not be given twice.
`State.Ticketed` says that they are not, and that nothing is recorded under a ticket
before it is given out or after it has been handed back.  A step gives out the next
ticket, or records something under the ticket of one request in flight, or hands that
ticket back (`turnover_of_step?`), and each of these keeps it so.

`Precedes m k history` is about the order between two requests: `m` happened before
anything did under the ticket `k`.
-/

namespace NativeLink

namespace Interleaving

variable {σ : Type}

/-- The ticket that a moment is recorded under. -/
def Moment.ticket : Moment σ → Nat
  | asked ticket _ _ => ticket
  | began ticket _ => ticket
  | resolved ticket _ _ => ticket
  | told ticket _ => ticket
  | ended ticket _ _ => ticket
  | discarded ticket _ _ => ticket
  | answered ticket _ _ => ticket

/-! ## Accounts -/

/-- What is recorded under a ticket, in the order it happened. -/
def account (k : Nat) (history : List (Moment σ)) : List (Moment σ) :=
  (history.filter fun m => m.ticket = k).reverse

section

variable {k : Nat} {m : Moment σ} {moments history later : List (Moment σ)}

theorem mem_account : m ∈ account k history ↔ m ∈ history ∧ m.ticket = k := by
  simp [account]

theorem account_eq_nil (h : ∀ m ∈ history, m.ticket ≠ k) : account k history = [] := by
  simpa [account] using h

/-- What has just happened to a request comes last in its account. -/
theorem account_append_own (h : ∀ m ∈ moments, m.ticket = k) :
    account k (moments.reverse ++ history) = account k history ++ moments := by
  have hall : moments.filter (fun m => m.ticket = k) = moments := by simpa using h
  rw [account, List.filter_append, List.reverse_append, List.filter_reverse, hall,
    List.reverse_reverse, account]

/-- What happens to others does not show in an account. -/
theorem account_append_other (h : ∀ m ∈ moments, m.ticket ≠ k) :
    account k (moments.reverse ++ history) = account k history := by
  have hnone : moments.filter (fun m => m.ticket = k) = [] := by simpa using h
  rw [account, List.filter_append, List.filter_reverse, hnone, List.reverse_nil, List.nil_append,
    account]

/-! ## The order between two requests -/

/-- The moment came before all that is recorded under the ticket. -/
def Precedes (m : Moment σ) (k : Nat) (history : List (Moment σ)) : Prop :=
  ∃ later earlier, history = later ++ m :: earlier ∧ ∀ m' ∈ earlier, m'.ticket ≠ k

/-- What came first stays first. -/
theorem Precedes.append (h : Precedes m k history) : Precedes m k (later ++ history) := by
  obtain ⟨after, earlier, rfl, hearlier⟩ := h
  exact ⟨later ++ after, earlier, by rw [List.append_assoc], hearlier⟩

/-- Whatever has happened came before a ticket that is not in use yet. -/
theorem precedes_of_mem (hm : m ∈ history) (hk : ∀ m' ∈ history, m'.ticket ≠ k) :
    Precedes m k history := by
  obtain ⟨later, earlier, rfl⟩ := List.append_of_mem hm
  exact ⟨later, earlier, rfl, fun m' hm' =>
    hk m' (List.mem_append_right _ (List.mem_cons_of_mem _ hm'))⟩

end

/-! ## Tickets in use -/

/-- The tickets of the requests in flight. -/
def State.inUse (s : State σ) : Multiset Nat := s.calls.map Call.ticket

/-- A delivery gives no ticket to anybody. -/
theorem map_ticket_deliver (outcome : Outcome (Answer σ)) (below : List (Call σ)) :
    (deliver outcome below).map Call.ticket = below.map Call.ticket := by
  cases below with
  | nil => rfl
  | cons call below =>
    obtain ⟨ticket, request, stage⟩ := call
    cases stage <;> rfl

/-- What is recorded while a request goes on is recorded under its ticket, and the request is not
answered by it. -/
theorem Shift.recorded {s : State σ} {call : Call σ} {stage : Stage σ} {c : Change σ}
    (h : Shift s call stage c) : ∀ m ∈ c.moments,
      m.ticket = call.ticket ∧ ∀ k name outcome, m ≠ .answered k name outcome := by
  cases h <;> simp [State.still, State.altered, Moment.ticket]

/-- What a step does to the tickets. -/
inductive Turnover (s t : State σ) : Prop where
  /-- The next ticket is given out. -/
  | issue (name text : String) (inUse : t.inUse = s.tickets ::ₘ s.inUse)
    (tickets : t.tickets = s.tickets + 1)
    (history : t.history = .asked s.tickets name text :: s.history)
  /-- Something is recorded under a ticket in use. -/
  | record {k : Nat} {moments : List (Moment σ)} (inUse : t.inUse = s.inUse)
    (tickets : t.tickets = s.tickets) (mem : k ∈ s.inUse)
    (own : ∀ m ∈ moments, m.ticket = k ∧ ∀ j name outcome, m ≠ .answered j name outcome)
    (history : t.history = moments.reverse ++ s.history)
  /-- A ticket is handed back. -/
  | back {k : Nat} (name : String) (outcome : Outcome (Answer σ))
    (inUse : s.inUse = k ::ₘ t.inUse) (tickets : t.tickets = s.tickets)
    (history : t.history = .answered k name outcome :: s.history)

/-- The tickets in use, when a thread is exchanged for another. -/
theorem inUse_set {s : State σ} {i : Nat} {thread : Thread σ} (h : s.threads[i]? = some thread) :
    ∃ others : Multiset Nat, s.inUse = thread.calls.map Call.ticket + others ∧
      ∀ new : Thread σ, ((s.threads.set i new).flatMap Thread.calls : Multiset (Call σ)).map
        Call.ticket = new.calls.map Call.ticket + others := by
  obtain ⟨others, hold, hnew⟩ := flatMap_set h Thread.calls
  refine ⟨others.map Call.ticket, ?_, fun new => ?_⟩
  · rw [State.inUse, State.calls, hold, Multiset.map_add, Multiset.map_coe]
  · rw [hnew, Multiset.map_add, Multiset.map_coe]

/-- **A step gives out a ticket, uses one, or takes one back.** -/
theorem turnover_of_step? {s t : State σ} {i : Nat} (h : step? s i = some t) : Turnover s t := by
  cases move_of_step? h with
  | @start request todo thread =>
    obtain ⟨others, hold, hnew⟩ := inUse_set thread
    refine .issue request.name request.text ((hnew _).trans ?_) rfl rfl
    rw [hold, ← Multiset.cons_add]
    rfl
  | @nest call below todo slot signature name text work next thread stage =>
    obtain ⟨others, hold, hnew⟩ := inUse_set thread
    refine .issue name text ((hnew _).trans ?_) rfl rfl
    rw [hold, ← Multiset.cons_add]
    rfl
  | @shift call below todo stage change thread shift =>
    obtain ⟨others, hold, hnew⟩ := inUse_set thread
    refine .record ((hnew _).trans hold.symm) rfl ?_ shift.recorded rfl
    rw [hold]
    exact Multiset.mem_add.mpr (.inl List.mem_cons_self)
  | @leave call below todo slot outcome thread stage =>
    obtain ⟨others, hold, hnew⟩ := inUse_set thread
    refine .back call.request.name outcome (hold.trans ?_) rfl rfl
    rw [List.map_cons, ← Multiset.cons_coe, Multiset.cons_add]
    refine congrArg (call.ticket ::ₘ ·) (Eq.trans ?_ (hnew _).symm)
    rw [map_ticket_deliver]

/-- Each ticket belongs to one request, and is used from the time it is given out until it is
handed back. -/
structure State.Ticketed (s : State σ) : Prop where
  apart : s.inUse.Nodup
  issued : ∀ k ∈ s.inUse, k < s.tickets
  past : ∀ m ∈ s.history, m.ticket < s.tickets
  gone : ∀ k name outcome, .answered k name outcome ∈ s.history → k ∉ s.inUse

namespace State.Ticketed

variable {s t : State σ}

/-- **Every step keeps the tickets in order.** -/
theorem step (hs : s.Ticketed) (h : Turnover s t) : t.Ticketed := by
  cases h with
  | issue name text inUse tickets history =>
    have hfresh : s.tickets ∉ s.inUse := fun hmem => Nat.lt_irrefl _ (hs.issued _ hmem)
    refine ⟨?_, fun k hk => ?_, fun m hm => ?_, fun k other outcome hm => ?_⟩
    · rw [inUse]
      exact Multiset.nodup_cons.mpr ⟨hfresh, hs.apart⟩
    · rw [inUse] at hk
      rw [tickets]
      rcases Multiset.mem_cons.mp hk with rfl | hk
      · exact Nat.lt_succ_self _
      · exact Nat.lt_succ_of_lt (hs.issued k hk)
    · rw [history] at hm
      rw [tickets]
      rcases List.mem_cons.mp hm with rfl | hm
      · exact Nat.lt_succ_self _
      · exact Nat.lt_succ_of_lt (hs.past m hm)
    · rw [history] at hm
      have hm : .answered k other outcome ∈ s.history := by simpa using hm
      rw [inUse]
      refine fun hk => (Multiset.mem_cons.mp hk).elim (fun hk => ?_) (hs.gone k other outcome hm)
      exact Nat.lt_irrefl s.tickets (hk ▸ hs.past _ hm)
  | @record k moments inUse tickets mem own history =>
    refine ⟨inUse ▸ hs.apart, fun j hj => ?_, fun m hm => ?_, fun j other outcome hm => ?_⟩
    · rw [inUse] at hj
      rw [tickets]
      exact hs.issued j hj
    · rw [history] at hm
      rw [tickets]
      rcases List.mem_append.mp hm with hm | hm
      · rw [(own m (List.mem_reverse.mp hm)).1]
        exact hs.issued k mem
      · exact hs.past m hm
    · rw [history] at hm
      rw [inUse]
      rcases List.mem_append.mp hm with hm | hm
      · exact absurd rfl ((own _ (List.mem_reverse.mp hm)).2 j other outcome)
      · exact hs.gone j other outcome hm
  | @back k name outcome inUse tickets history =>
    have hmem : k ∈ s.inUse := mem_of_eq_cons inUse
    have hsub : ∀ j ∈ t.inUse, j ∈ s.inUse := fun j hj => by
      rw [inUse]
      exact Multiset.mem_cons_of_mem hj
    have hapart := hs.apart
    rw [inUse] at hapart
    obtain ⟨hout, hapart⟩ := Multiset.nodup_cons.mp hapart
    refine ⟨hapart, fun j hj => ?_, fun m hm => ?_, fun j other given hm => ?_⟩
    · rw [tickets]
      exact hs.issued j (hsub j hj)
    · rw [history] at hm
      rw [tickets]
      rcases List.mem_cons.mp hm with rfl | hm
      · exact hs.issued k hmem
      · exact hs.past m hm
    · rw [history] at hm
      rcases List.mem_cons.mp hm with hm | hm
      · cases hm
        exact hout
      · exact fun hj => hs.gone j other given hm (hsub j hj)

/-- Nothing is recorded under the next ticket yet. -/
theorem account_next (hs : s.Ticketed) : account s.tickets s.history = [] :=
  account_eq_nil fun m hm => Nat.ne_of_lt (hs.past m hm)

/-- Two requests in flight have different tickets. -/
theorem ticket_ne (hs : s.Ticketed) {call other : Call σ} {rest : Multiset (Call σ)}
    (hcalls : s.calls = call ::ₘ rest) (hother : other ∈ rest) : call.ticket ≠ other.ticket := by
  have hapart := hs.apart
  rw [State.inUse, hcalls, Multiset.map_cons] at hapart
  intro heq
  refine (Multiset.nodup_cons.mp hapart).1 ?_
  rw [heq]
  exact Multiset.mem_map_of_mem Call.ticket hother

end State.Ticketed

/-- **Tickets are in order in every state that is reached.** -/
theorem ticketed_of_reaches {world : σ} {threads : List (List (Request σ))} {s : State σ}
    (h : Reaches (.start world threads) s) : s.Ticketed := by
  generalize hstart : State.start world threads = s₀ at h
  induction h with
  | refl =>
    subst hstart
    have hnone : (State.start world threads).inUse = 0 := by
      simp [State.inUse, State.calls, State.start, List.flatMap_map]
    refine ⟨by simp [hnone], by simp [hnone], ?_, ?_⟩ <;> simp [State.start]
  | tail _ hstep ih => exact ih.step (turnover_of_step? hstep)

end Interleaving

end NativeLink
