import NativeLink.Proofs.Interleaving.Stories

/-!
# The log tells what happened

However the requests of threads are interleaved, each request that is answered has a
story, and its account is that story and the answer.  So what the cache told of it can be
read off: nothing, one warning, or what it was about to resolve, before anything its
resolver did.  Requests that its plan makes are above it on its thread while it waits for
them, and what it told before its resolver ran was told before anything of theirs.

The invariant is `State.Told`.  A step records moments under one ticket, so the accounts
of all other requests stay what they are, whether those are in flight (`Call.Told.frame`)
or answered (`Told.frame`).  That they are other requests is what the order of tickets is
needed for (`State.Told.others`).

`log_exact` joins this to what is known of requests that are made one after the other.
-/

namespace NativeLink

namespace Interleaving

variable {σ : Type} {threads : List (List (Request σ))} {history moments : List (Moment σ)}

/-! ## Requests on top of each other -/

/-- The request waits for the answer to one that its plan has made. -/
def Call.Waits (call : Call σ) : Prop :=
  ∃ slot signature name text work next,
    call.stage = .running slot signature (.request name text work next)

/-- What it was about to resolve, the request told before anything happened under the ticket. -/
def Call.OpenedBefore (outer : Call σ) (k : Nat) (history : List (Moment σ)) : Prop :=
  ∃ signature, Signature.parse outer.request.text = .ok signature ∧
    Precedes (.told outer.ticket (.resolving outer.request.name signature)) k history

/-- The requests of a thread wait, but for the topmost, and each was opened before those above
it. -/
structure Thread.Stacked (history : List (Moment σ)) (thread : Thread σ) : Prop where
  waits : ∀ call ∈ thread.calls.tail, call.Waits
  order : thread.calls.Pairwise fun inner outer => outer.OpenedBefore inner.ticket history

namespace Thread.Stacked

variable {call : Call σ} {below : List (Call σ)} {todo : List (Request σ)}

theorem frame {thread : Thread σ} (h : thread.Stacked history) (later : List (Moment σ)) :
    thread.Stacked (later ++ history) := by
  refine ⟨h.waits, h.order.imp fun hopened => ?_⟩
  obtain ⟨signature, hread, hprecedes⟩ := hopened
  exact ⟨signature, hread, hprecedes.append⟩

/-- The stage of the topmost request does not matter. -/
theorem top (h : Stacked history ⟨call :: below, todo⟩) (stage : Stage σ) :
    Stacked history ⟨{ call with stage := stage } :: below, todo⟩ := by
  obtain ⟨htop, hbelow⟩ := List.pairwise_cons.mp h.order
  exact ⟨h.waits, List.pairwise_cons.mpr ⟨htop, hbelow⟩⟩

end Thread.Stacked

/-- What a request is handed goes on with the plan that waits for it. -/
theorem deliver_of_waits {call : Call σ} (h : call.Waits) (outcome : Outcome (Answer σ))
    (below : List (Call σ)) : ∃ slot signature name text work next,
      call.stage = .running slot signature (.request name text work next) ∧
      deliver outcome (call :: below) = { call with
        stage := .running slot signature (resume (.request name text work next) outcome) } ::
          below := by
  obtain ⟨slot, signature, name, text, work, next, hstage⟩ := h
  exact ⟨slot, signature, name, text, work, next, hstage, by simp only [deliver, hstage]⟩

/-- When the topmost request leaves, the next one goes on. -/
theorem Thread.Stacked.leave {call : Call σ} {below : List (Call σ)} {todo : List (Request σ)}
    (h : Thread.Stacked history ⟨call :: below, todo⟩) (outcome : Outcome (Answer σ)) :
    Thread.Stacked history ⟨deliver outcome below, todo⟩ := by
  obtain ⟨-, horder⟩ := List.pairwise_cons.mp h.order
  cases below with
  | nil => exact ⟨by simp [deliver], .nil⟩
  | cons lower below =>
    obtain ⟨hlower, hbelow⟩ := List.forall_mem_cons.mp h.waits
    obtain ⟨slot, signature, name, text, work, next, -, hdeliver⟩ :=
      deliver_of_waits hlower outcome below
    rw [hdeliver]
    exact Thread.Stacked.top ⟨hbelow, horder⟩ _

/-! ## Requests in flight -/

/-- A request in flight is one of the run, and its account is its story so far. -/
structure Call.Told (threads : List (List (Request σ))) (history : List (Moment σ))
    (call : Call σ) : Prop where
  arises : Arises threads call.request
  soFar : SoFar call.ticket call.request call.stage (account call.ticket history)

namespace Call.Told

variable {call : Call σ}

/-- What happens to others changes nothing. -/
theorem frame (h : call.Told threads history) (hother : ∀ m ∈ moments, m.ticket ≠ call.ticket) :
    call.Told threads (moments.reverse ++ history) :=
  ⟨h.arises, by rw [account_append_other hother]; exact h.soFar⟩

/-- A new request has been asked, and that is all. -/
theorem entering {request : Request σ} (harises : Arises threads request) {k : Nat}
    (hnew : account k history = []) :
    Call.Told threads ([.asked k request.name request.text].reverse ++ history)
      ⟨k, request, .entering⟩ := by
  refine ⟨harises, ?_⟩
  rw [account_append_own (by simp [Moment.ticket]), hnew]
  exact .entering

/-- A request that waits was opened before any request that is still to come. -/
theorem openedBefore (h : call.Told threads history) (hwaits : call.Waits) {k : Nat}
    (hk : ∀ m ∈ history, m.ticket ≠ k) : call.OpenedBefore k history := by
  obtain ⟨slot, signature, name, text, work, next, hstage⟩ := hwaits
  have hsoFar := h.soFar
  rw [hstage] at hsoFar
  obtain ⟨hread, events, -, haccount⟩ := hsoFar.of_running
  have htold : .told call.ticket (.resolving call.request.name signature) ∈
      account call.ticket history := by
    rw [haccount]
    simp [working, opening]
  exact ⟨signature, hread, precedes_of_mem (mem_account.mp htold).1 hk⟩

/-- A request that waits goes on with its plan. -/
theorem deliver (h : call.Told threads history) {slot : Nat} {signature : Signature}
    {name text : String} {work : Signature → Plan σ} {next : Answer σ → Plan σ}
    (hstage : call.stage = .running slot signature (.request name text work next))
    (outcome : Outcome (Answer σ)) : Call.Told threads history { call with
      stage := .running slot signature (resume (.request name text work next) outcome) } := by
  have hsoFar := h.soFar
  rw [hstage] at hsoFar
  obtain ⟨hread, events, hplan, haccount⟩ := hsoFar.of_running
  refine ⟨h.arises, ?_⟩
  rw [haccount]
  exact .running hread (hplan.request outcome)

end Call.Told

/-- The same of all requests under one that leaves. -/
theorem told_of_mem_deliver {below : List (Call σ)} (hwaits : ∀ call ∈ below, call.Waits)
    (hbelow : ∀ call ∈ below, call.Told threads history) {outcome : Outcome (Answer σ)}
    {call : Call σ} (hcall : call ∈ deliver outcome below) : call.Told threads history := by
  cases below with
  | nil => cases hcall
  | cons lower below =>
    obtain ⟨slot, signature, name, text, work, next, hstage, hdeliver⟩ :=
      deliver_of_waits (hwaits lower List.mem_cons_self) outcome below
    rw [hdeliver] at hcall
    rcases List.mem_cons.mp hcall with rfl | hcall
    · exact (hbelow lower List.mem_cons_self).deliver hstage outcome
    · exact hbelow call (List.mem_cons_of_mem _ hcall)

/-! ## Answers -/

/-- The request of a run that was answered under the ticket has a story, and there is nothing else
in its account. -/
def Told (threads : List (List (Request σ))) (history : List (Moment σ)) (k : Nat) (name : String)
    (outcome : Outcome (Answer σ)) : Prop :=
  ∃ request, Arises threads request ∧ request.name = name ∧ ∃ moments,
    Story k request outcome moments ∧ account k history = moments ++ [.answered k name outcome]

/-- Whatever was answered is told of. -/
def Answers (threads : List (List (Request σ))) (history : List (Moment σ)) : Prop :=
  ∀ k name outcome, .answered k name outcome ∈ history → Told threads history k name outcome

/-- What happens to others changes nothing. -/
theorem Told.frame {k : Nat} {name : String} {outcome : Outcome (Answer σ)}
    (h : Told threads history k name outcome) (hother : ∀ m ∈ moments, m.ticket ≠ k) :
    Told threads (moments.reverse ++ history) k name outcome := by
  obtain ⟨request, harises, hname, story, hstory, haccount⟩ := h
  refine ⟨request, harises, hname, story, hstory, ?_⟩
  rw [account_append_other hother, haccount]

/-! ## The invariant -/

/-- The log of a run tells what happened so far. -/
structure State.Told (threads : List (List (Request σ))) (s : State σ) : Prop where
  todo : ∀ thread ∈ s.threads, ∀ request ∈ thread.todo, Arises threads request
  stacked : ∀ thread ∈ s.threads, thread.Stacked s.history
  calls : ∀ call ∈ s.calls, call.Told threads s.history
  answers : Answers threads s.history

/-- The topmost request of a thread, and what else is in flight. -/
theorem calls_of_top {s : State σ} {i : Nat} {call : Call σ} {below : List (Call σ)}
    {todo : List (Request σ)} (thread : s.threads[i]? = some ⟨call :: below, todo⟩) :
    ∃ others : Multiset (Call σ), s.calls = call ::ₘ (below + others) ∧
      ∀ new : Thread σ, ((s.threads.set i new).flatMap Thread.calls : Multiset (Call σ)) =
        new.calls + others := by
  obtain ⟨others, hold, hnew⟩ := flatMap_set thread Thread.calls
  refine ⟨others, ?_, hnew⟩
  rw [State.calls, hold, ← Multiset.cons_add]
  rfl

namespace State.Told

variable {s t : State σ} {i : Nat} {call : Call σ} {below : List (Call σ)}
  {old todo : List (Request σ)}

/-- The threads of a state, with another one in place `i`. -/
theorem set (hs : s.Told threads) (i : Nat) (new : Thread σ) (later : List (Moment σ))
    (htodo : ∀ request ∈ new.todo, Arises threads request) (hstacked : new.Stacked s.history) :
    (∀ thread ∈ s.threads.set i new, ∀ request ∈ thread.todo, Arises threads request) ∧
      ∀ thread ∈ s.threads.set i new, thread.Stacked (later ++ s.history) := by
  refine ⟨fun thread hthread => ?_, fun thread hthread => ?_⟩
  · rcases List.mem_or_eq_of_mem_set hthread with hold | rfl
    · exact hs.todo thread hold
    · exact htodo
  · rcases List.mem_or_eq_of_mem_set hthread with hold | rfl
    · exact (hs.stacked thread hold).frame later
    · exact hstacked.frame later

/-- **What happens to one request concerns no other**, in flight or answered. -/
theorem others (hs : s.Told threads) (ht : s.Ticketed) {rest : Multiset (Call σ)}
    (hcalls : s.calls = call ::ₘ rest) (hown : ∀ m ∈ moments, m.ticket = call.ticket) :
    (∀ other ∈ rest, other.Told threads (moments.reverse ++ s.history)) ∧
      ∀ k name outcome, .answered k name outcome ∈ s.history →
        Interleaving.Told threads (moments.reverse ++ s.history) k name outcome := by
  refine ⟨fun other hother => ?_, fun k name outcome hm => ?_⟩
  · refine (hs.calls other (by rw [hcalls]; exact Multiset.mem_cons_of_mem hother)).frame
      fun m hm => ?_
    rw [hown m hm]
    exact ht.ticket_ne hcalls hother
  · refine (hs.answers k name outcome hm).frame fun m hmoment heq => ht.gone k name outcome hm ?_
    rw [← heq, hown m hmoment]
    exact Multiset.mem_map_of_mem _ (mem_of_eq_cons hcalls)

/-- A new request comes in on top of a thread whose requests all wait. -/
theorem enter (hs : s.Told threads) (ht : s.Ticketed) {calls : List (Call σ)}
    (thread : s.threads[i]? = some ⟨calls, old⟩)
    (htodo : ∀ request ∈ todo, Arises threads request) {request : Request σ}
    (harises : Arises threads request) (hwaits : ∀ call ∈ calls, call.Waits) :
    (s.enter i calls todo request).Told threads := by
  have hfresh : ∀ m ∈ s.history, m.ticket ≠ s.tickets := fun m hm => Nat.ne_of_lt (ht.past m hm)
  obtain ⟨others, hold, hnew⟩ := flatMap_set thread Thread.calls
  have hcalls : (s.enter i calls todo request).calls =
      ⟨s.tickets, request, .entering⟩ ::ₘ s.calls := by
    refine (hnew _).trans ?_
    rw [State.calls, hold, ← Multiset.cons_add]
    rfl
  -- all requests of the thread were opened before this one is asked
  have horder : ∀ call ∈ calls, call.OpenedBefore s.tickets s.history := by
    intro call hcall
    refine (hs.calls call ?_).openedBefore (hwaits call hcall) hfresh
    rw [State.calls, hold]
    exact Multiset.mem_add.mpr (.inl hcall)
  have hstacked := (hs.stacked _ (List.mem_of_getElem? thread)).order
  obtain ⟨htodos, hstacks⟩ := hs.set i ⟨⟨s.tickets, request, .entering⟩ :: calls, todo⟩
    [.asked s.tickets request.name request.text] htodo
    ⟨hwaits, List.pairwise_cons.mpr ⟨horder, hstacked⟩⟩
  refine ⟨htodos, hstacks, fun call hcall => ?_, fun k name outcome hm => ?_⟩
  · rw [hcalls] at hcall
    rcases Multiset.mem_cons.mp hcall with rfl | hcall
    · exact .entering harises ht.account_next
    · refine (hs.calls call hcall).frame fun m hm => ?_
      rw [List.mem_singleton.mp hm]
      exact Nat.ne_of_gt (ht.issued call.ticket (Multiset.mem_map_of_mem _ hcall))
  · have hm : .answered k name outcome ∈ s.history := (List.mem_cons.mp hm).resolve_left (by simp)
    refine (hs.answers k name outcome hm).frame fun m hmoment => ?_
    rw [List.mem_singleton.mp hmoment]
    exact Nat.ne_of_gt (ht.past _ hm)

/-- The topmost request of a thread goes on. -/
theorem shift (hs : s.Told threads) (ht : s.Ticketed)
    (hfound : ∀ slot b, call.stage.phase.seat? = some slot → s.table.cell slot = .bound b →
      b.name = call.request.name ∧ b.Offered fun _ _ _ => True)
    (thread : s.threads[i]? = some ⟨call :: below, todo⟩) {stage : Stage σ} {change : Change σ}
    (h : Shift s call stage change) :
    ((s.change change).setThread i ⟨{ call with stage := stage } :: below, todo⟩).Told threads := by
  have hmem := List.mem_of_getElem? thread
  have htodo : ∀ request ∈ todo, Arises threads request := hs.todo _ hmem
  obtain ⟨others, hcalls, hnew⟩ := calls_of_top thread
  have hcall := hs.calls call (mem_of_eq_cons hcalls)
  have hown : ∀ m ∈ change.moments, m.ticket = call.ticket := fun m hm => (h.recorded m hm).1
  obtain ⟨hrest, hanswers⟩ := hs.others ht hcalls hown
  obtain ⟨htodos, hstacks⟩ := hs.set i ⟨{ call with stage := stage } :: below, todo⟩
    change.moments.reverse htodo ((hs.stacked _ hmem).top stage)
  refine ⟨htodos, hstacks, fun other hother => ?_, fun k name outcome hm => ?_⟩
  · change other ∈ ((s.threads.set i _).flatMap Thread.calls : Multiset (Call σ)) at hother
    rw [hnew, ← Multiset.cons_coe, Multiset.cons_add] at hother
    rcases Multiset.mem_cons.mp hother with rfl | hother
    · refine ⟨hcall.arises, ?_⟩
      have hsoFar := h.soFar hfound hcall.soFar
      rw [← account_append_own hown] at hsoFar
      exact hsoFar
    · exact hrest other hother
  · refine hanswers k name outcome ((List.mem_append.mp hm).resolve_left fun hm => ?_)
    exact (h.recorded _ (List.mem_reverse.mp hm)).2 _ _ _ rfl

/-- The topmost request of a thread is answered and leaves. -/
theorem leave (hs : s.Told threads) (ht : s.Ticketed)
    (thread : s.threads[i]? = some ⟨call :: below, todo⟩) {slot : Nat}
    {outcome : Outcome (Answer σ)} (stage : call.stage = .leaving slot outcome)
    (table : Table σ) :
    ((s.change (s.altered table [.answered call.ticket call.request.name outcome])).setThread i
      ⟨deliver outcome below, todo⟩).Told threads := by
  have hmem := List.mem_of_getElem? thread
  have htodo : ∀ request ∈ todo, Arises threads request := hs.todo _ hmem
  have hstacked := hs.stacked _ hmem
  obtain ⟨others, hcalls, hnew⟩ := calls_of_top thread
  have hcall := hs.calls call (mem_of_eq_cons hcalls)
  have hown : ∀ m ∈ [Moment.answered call.ticket call.request.name outcome],
      m.ticket = call.ticket := by simp [Moment.ticket]
  obtain ⟨hrest, hanswers⟩ := hs.others ht hcalls hown
  obtain ⟨htodos, hstacks⟩ := hs.set i ⟨deliver outcome below, todo⟩
    [.answered call.ticket call.request.name outcome] htodo (hstacked.leave outcome)
  refine ⟨htodos, hstacks, fun other hother => ?_, fun k name given hm => ?_⟩
  · change other ∈ ((s.threads.set i _).flatMap Thread.calls : Multiset (Call σ)) at hother
    rw [hnew] at hother
    rcases Multiset.mem_add.mp hother with hother | hother
    · exact told_of_mem_deliver hstacked.waits
        (fun lower hlower => hrest lower (Multiset.mem_add.mpr (.inl hlower))) hother
    · exact hrest other (Multiset.mem_add.mpr (.inr hother))
  · rcases List.mem_cons.mp hm with hm | hm
    · cases hm
      have hsoFar := hcall.soFar
      rw [stage] at hsoFar
      cases hsoFar with
      | leaving story =>
        exact ⟨call.request, hcall.arises, rfl, _, story, account_append_own hown⟩
    · exact hanswers k name given hm

/-- **Every step keeps the log true.** -/
theorem step (hs : s.Told threads) (ht : s.Ticketed)
    (hfound : ∀ call ∈ s.calls, ∀ slot b, call.stage.phase.seat? = some slot →
      s.table.cell slot = .bound b → b.name = call.request.name ∧ b.Offered fun _ _ _ => True)
    (h : step? s i = some t) : t.Told threads := by
  cases move_of_step? h with
  | start thread =>
    obtain ⟨hrequest, htodo⟩ :=
      List.forall_mem_cons.mp (hs.todo _ (List.mem_of_getElem? thread))
    exact hs.enter ht thread htodo hrequest (by simp)
  | @nest call below todo slot signature name text work next thread stage =>
    have hmem := List.mem_of_getElem? thread
    obtain ⟨others, hcalls, -⟩ := calls_of_top thread
    have hcall := hs.calls call (mem_of_eq_cons hcalls)
    have hsoFar := hcall.soFar
    rw [stage] at hsoFar
    obtain ⟨hread, events, hplan, -⟩ := hsoFar.of_running
    have hwaits : call.Waits := ⟨slot, signature, name, text, work, next, stage⟩
    exact hs.enter ht thread (hs.todo _ hmem) (.nested hcall.arises hread hplan)
      (List.forall_mem_cons.mpr ⟨hwaits, (hs.stacked _ hmem).waits⟩)
  | shift thread shift =>
    obtain ⟨others, hcalls, -⟩ := calls_of_top thread
    exact hs.shift ht (hfound _ (mem_of_eq_cons hcalls)) thread shift
  | leave thread stage => exact hs.leave ht thread stage _

end State.Told

/-- A history only grows. -/
theorem history_suffix_of_reaches {s t : State σ} (h : Reaches s t) : s.history <:+ t.history := by
  induction h with
  | refl => exact List.suffix_rfl
  | @tail t u i _ hstep ih =>
    rcases scene_of_step? hstep with hsame | hscene
    · have hhistory : u.history = t.history := congrArg Scene.history hsame
      rw [hhistory]
      exact ih
    · exact ih.trans hscene.history_suffix

/-! ## The result -/

/-- The log is true in every state that is reached. -/
theorem State.Told.of_reaches {world : σ} {s : State σ}
    (h : Reaches (.start world threads) s) : s.Told threads := by
  generalize hstart : State.start world threads = s₀ at h
  induction h with
  | refl =>
    subst hstart
    refine ⟨fun thread hthread => ?_, fun thread hthread => ?_, fun call hcall => ?_, ?_⟩
    · obtain ⟨requests, hrequests, rfl⟩ := List.mem_map.mp hthread
      exact fun request hrequest => .given hrequests hrequest
    · obtain ⟨requests, hrequests, rfl⟩ := List.mem_map.mp hthread
      exact ⟨by simp, .nil⟩
    · simp [State.calls, State.start, List.flatMap_map] at hcall
    · simp [Answers, State.start]
  | tail hreaches hstep ih =>
    subst hstart
    exact ih.step (ticketed_of_reaches hreaches)
      (fun call hcall slot b => found_of_reaches hreaches hcall (b := b)) hstep

/-- Whenever one request is in flight above another on a thread, what the lower one was about to
resolve was told before anything that ever happens under the ticket of the upper one. -/
theorem openedBefore_of_reaches {world : σ} {s t : State σ}
    (h : Reaches (.start world threads) s) (ht : Reaches s t) {thread : Thread σ}
    (hthread : thread ∈ s.threads) :
    thread.calls.Pairwise fun inner outer => outer.OpenedBefore inner.ticket t.history := by
  obtain ⟨later, hlater⟩ := history_suffix_of_reaches ht
  rw [← hlater]
  exact (((State.Told.of_reaches h).stacked thread hthread).frame later).order

/-- **The log tells what happened.**

On threads, however they are interleaved, some request of the run has a story that comes to what
was answered, and under its ticket there is that story and the answer, and nothing else.  If one
request is in flight above another, what the lower one was about to resolve was told before anything
that ever happens under the ticket of the upper one.

One after the other, whatever was done with the cache before, a request that comes to an end adds to
the log what `Session.written` says. -/
theorem log_exact (world : σ) :
    (∀ threads s, Reaches (.start world threads) s →
      (∀ k name outcome, .answered k name outcome ∈ s.history →
        ∃ request, Arises threads request ∧ request.name = name ∧ ∃ moments,
          Story k request outcome moments ∧
            account k s.history = moments ++ [.answered k name outcome]) ∧
        ∀ t, Reaches s t → ∀ thread ∈ s.threads, thread.calls.Pairwise fun inner outer =>
          ∃ signature, Signature.parse outer.request.text = .ok signature ∧
            Precedes (.told outer.ticket (.resolving outer.request.name signature)) inner.ticket
              t.history) ∧
      ∀ (before : History σ) (name text : String) (work : Signature → Plan σ)
        (outcome : Outcome (Answer σ)) (u : Session σ),
        Session.request name text (fun signature => (work signature).run)
            (before.run (.start world)) = (outcome, u) → outcome ≠ .stuck →
          u.log = (before.run (.start world)).log ++
            Session.written name text (fun signature => (work signature).written)
              (before.run (.start world)) := by
  refine ⟨fun threads s h => ⟨(State.Told.of_reaches h).answers, fun t ht thread hthread => ?_⟩,
    fun before name text work outcome u hrequest hends => before.log_of_request hrequest hends⟩
  exact openedBefore_of_reaches h ht hthread

/-- A request for a name that needs another one first. -/
def composed : Request Unit :=
  ⟨"@f.g", "():VOID", fun _ => .request "@f" "():VOID"
    (fun _ => .answer (.ok fun _ world => (.stuck, [], world))) fun _ =>
      .answer (.ok fun _ world => (.stuck, [], world))⟩

/-- A request for the same name under another signature. -/
def deviating : Request Unit :=
  ⟨"@f.g", "():POINTER", fun _ => .answer (.error (.symbolNotFound "@f.g"))⟩

/-- Request 1 waits for request 0, whose plan has just made request 2. -/
def disputing : State Unit :=
  follow [0, 0, 0, 0, 0, 1, 1, 1, 0] (.start () [[composed], [deviating]])

/-- All three are answered. -/
def disputed : State Unit := follow [0, 0, 0, 0, 0, 0, 0, 0, 1, 1] disputing

/-- What requests 0 and 1 are answered. -/
def disputedBinding : Binding Unit :=
  .make 1 "@f.g" ⟨[], .void⟩ fun _ world => (.stuck, [], world)

/-- The session in which the name was requested before. -/
def settled : Session Unit :=
  History.run [.request composed.name composed.text composed.work] (.start ())

/-- Request 1 is warned and that is all; request 0 told what it resolves before request 2 was
made.  One after the other, the request that comes second is warned as well. -/
theorem log_disputed :
    ((∃ request, Arises [[composed], [deviating]] request ∧ request.name = "@f.g" ∧ ∃ moments,
      Story 1 request (.returned (.ok disputedBinding)) moments ∧
        account 1 disputed.history =
          moments ++ [.answered 1 "@f.g" (.returned (.ok disputedBinding))]) ∧
      account 1 disputed.history =
        [.asked 1 "@f.g" "():POINTER", .told 1 (.conflict "@f.g" ⟨[], .void⟩ "():POINTER"),
          .answered 1 "@f.g" (.returned (.ok disputedBinding))]) ∧
      Precedes (.told 0 (.resolving "@f.g" ⟨[], .void⟩)) 2 disputed.history ∧
      (Session.request "@f.g" "():POINTER" (fun signature => (deviating.work signature).run)
        settled).2.log = settled.log ++ [.conflict "@f.g" ⟨[], .void⟩ "():POINTER"] := by
  obtain ⟨onThreads, inTurn⟩ := log_exact ()
  have hmid : Reaches (.start () [[composed], [deviating]]) disputing := reaches_follow _ _
  have hend : Reaches disputing disputed := reaches_follow _ _
  refine ⟨⟨(onThreads _ _ (hmid.trans hend)).1 1 "@f.g" _ ?_, rfl⟩, ?_, ?_⟩
  · exact List.mem_of_getElem? (show disputed.history[0]? = some _ from rfl)
  · have hstack := (onThreads _ _ hmid).2 disputed hend _
      (List.mem_of_getElem? (show disputing.threads[0]? = some _ from rfl))
    obtain ⟨signature, hread, hfirst⟩ := (List.pairwise_cons.mp hstack).1 _ List.mem_cons_self
    obtain rfl : signature = ⟨[], .void⟩ := Except.ok.inj (hread.symm.trans rfl)
    exact hfirst
  · exact inTurn [.request composed.name composed.text composed.work] "@f.g" "():POINTER"
      deviating.work (.returned (.ok disputedBinding)) _ rfl (by simp)

end Interleaving

end NativeLink
