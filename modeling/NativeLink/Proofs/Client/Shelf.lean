import Mathlib.Data.List.Nodup
import NativeLink.Proofs.Client.Birth

/-!
# Callables with states of their own

A callable may have a state that changes with each call.  Suppose that the world keeps these states
on a shelf, by number, and that a resolver puts a new one there whenever it gives a callable
(`Resolver.Stocks`).  Then every binding has a place on the shelf to itself, whatever contexts it is
bound in and however often resolvers fail, panic, or ask for other names in between.  So the calls
of a binding, and no others, move its state: the answer to the `k`-th call that reaches the binding,
through whatever operation or invoker, is the `k`-th answer of its callable
(`Client.exchanges_eq_turns`).

The places are written down by the numbers of bindings, in a list that has no entry twice
(`Shelf.Books`).  When a plan gives a callable, its place must not have been given away by the
requests that the plan has made in the meantime.  It has not, since a plan gives away only places
that it has stocked itself.
-/

namespace NativeLink

variable {σ κ : Type}

/-- Callables with states of their own, which the world keeps by number. -/
structure Shelf (σ κ : Type) where
  states : σ → List κ
  callable : Nat → Callable σ
  /-- What a callable answers in a state, and the state it leaves. -/
  turn : κ → List Value → Reply × κ
  /-- A callable answers from its own state and changes no other. -/
  own : ∀ {world n k} args, (states world)[n]? = some k →
    (callable n args world).1 = (turn k args).1 ∧
      states (callable n args world).2.2 = (states world).set n (turn k args).2

namespace Shelf

/-- What a callable answers when it is called again and again. -/
def turns (S : Shelf σ κ) : κ → List (List Value) → List Reply
  | _, [] => []
  | k, args :: rest => (S.turn k args).1 :: S.turns (S.turn k args).2 rest

/-- The binding has the place that is written down for it. -/
def Holds (S : Shelf σ κ) (places : List Nat) (b : Binding σ) : Prop :=
  ∃ n, places[b.id]? = some n ∧ b.callable = S.callable n

/-- A place for each binding that was made, and none of them given away twice. -/
structure Books (S : Shelf σ κ) (places : List Nat) (fresh : Nat) (world : σ) : Prop where
  count : places.length = fresh
  apart : places.Nodup
  inside : ∀ n ∈ places, n < (S.states world).length

variable {S : Shelf σ κ} {places made : List Nat} {b other : Binding σ}

theorem Holds.append (h : S.Holds places b) (made : List Nat) : S.Holds (places ++ made) b := by
  obtain ⟨n, hn, hcallable⟩ := h
  exact ⟨n, List.getElem?_append_left (List.getElem?_eq_some_iff.mp hn).1 ▸ hn, hcallable⟩

/-- The place of the next binding. -/
theorem Books.add {fresh n : Nat} {world : σ} (h : S.Books places fresh world)
    (hn : n < (S.states world).length) (hnew : n ∉ places) :
    S.Books (places ++ [n]) (fresh + 1) world := by
  refine ⟨by rw [List.length_append, h.count, List.length_singleton], ?_, fun m hm => ?_⟩
  · refine List.nodup_append.mpr ⟨h.apart, by simp, ?_⟩
    rintro m hm _ hlast rfl
    exact hnew (List.mem_singleton.mp hlast ▸ hm)
  · rcases List.mem_append.mp hm with hm | hm
    · exact h.inside m hm
    · exact List.mem_singleton.mp hm ▸ hn

theorem Books.mono {fresh : Nat} {world world' : σ} (h : S.Books places fresh world)
    (hlength : (S.states world).length ≤ (S.states world').length) :
    S.Books places fresh world' :=
  ⟨h.count, h.apart, fun n hn => Nat.lt_of_lt_of_le (h.inside n hn) hlength⟩

end Shelf

/-! ## Resolvers that stock -/

/-- The plan only adds to the shelf, and gives a callable from a place that it has stocked itself.
It has stocked the places in `mine` so far. -/
def Plan.Stocks (S : Shelf σ κ) : Plan σ → (Nat → Prop) → Prop
  | .answer (.ok callable), mine => ∃ n, mine n ∧ callable = S.callable n
  | .answer (.error _), _ => True
  | .panic _, _ => True
  | .stuck, _ => True
  | .tell _ next, mine => next.Stocks S mine
  | .step change next, mine => ∀ world, S.states world <+: S.states (change world) ∧
      (next world).Stocks S fun n => mine n ∨
        (S.states world).length ≤ n ∧ n < (S.states (change world)).length
  | .look _ next, mine => ∀ found, (next found).Stocks S mine
  | .request _ _ work next, mine =>
    (∀ signature, (work signature).Stocks S fun _ => False) ∧ ∀ answer, (next answer).Stocks S mine

/-- The resolver makes a new callable whenever it finds a name. -/
def Resolver.Stocks (S : Shelf σ κ) (resolver : Resolver σ) : Prop :=
  ∀ name signature, (resolver name signature).Stocks S fun _ => False

namespace Session

/-- What is bound in the session has its place. -/
structure Placed (S : Shelf σ κ) (places : List Nat) (s : Session σ) : Prop where
  books : S.Books places s.fresh s.world
  bound : ∀ {name b}, s.table.get? name = some b → S.Holds places b

/-- What is made between two moments gets places that were not there at the first. -/
structure Stocked (S : Shelf σ κ) (places made : List Nat) (s u : Session σ) : Prop where
  placed : u.Placed S (places ++ made)
  new : ∀ n ∈ made, (S.states s.world).length ≤ n
  kept : S.states s.world <+: S.states u.world

section

variable {S : Shelf σ κ} {places made more : List Nat} {s u v : Session σ} {name text : String}

theorem Placed.stocked (h : s.Placed S places) (hfresh : u.fresh = s.fresh)
    (hworld : u.world = s.world)
    (hbound : ∀ name b, u.table.get? name = some b → s.table.get? name = some b) :
    Stocked S places [] s u := by
  refine ⟨⟨?_, fun {name b} hb => ?_⟩, nofun, hworld ▸ List.prefix_refl _⟩
  · rw [List.append_nil, hfresh, hworld]
    exact h.books
  · rw [List.append_nil]
    exact h.bound (hbound name b hb)

theorem Stocked.refl (h : s.Placed S places) : Stocked S places [] s s :=
  h.stocked rfl rfl fun _ _ => id

theorem Stocked.trans (h : Stocked S places made s u) (k : Stocked S (places ++ made) more u v) :
    Stocked S places (made ++ more) s v := by
  refine ⟨List.append_assoc .. ▸ k.placed, fun n hn => ?_, h.kept.trans k.kept⟩
  rcases List.mem_append.mp hn with hn | hn
  · exact h.new n hn
  · exact Nat.le_trans h.kept.length_le (k.new n hn)

/-- To begin with a resolver binds nothing. -/
theorem Placed.begun (h : s.Placed S places) (hs : s.table.WellFormed) (signature : Signature) :
    (s.begun name signature).Placed S places := by
  refine ⟨h.books, fun {other b} hb => ?_⟩
  rcases (mints_begun (P := fun _ => True) hs signature).bound hb with hold | ⟨hfrom, hto, -⟩
  · exact h.bound hold
  · exact absurd hto (Nat.not_lt.mpr hfrom)

/-- At the end of a request a cell is emptied. -/
theorem Stocked.emptied (h : Stocked S places made s u) (hfresh : v.fresh = u.fresh)
    (hworld : v.world = u.world)
    (hbound : ∀ other b, v.table.get? other = some b → u.table.get? other = some b) :
    Stocked S places made s v := by
  have hlast := h.trans (h.placed.stocked hfresh hworld hbound)
  rwa [List.append_nil] at hlast

/-- At the end of a request a name is bound, to a callable whose place has not been given away. -/
theorem Stocked.bind (h : Stocked S places made s u) (name : String) (signature : Signature)
    {n : Nat} (hn : n < (S.states u.world).length) (hstocked : (S.states s.world).length ≤ n)
    (hnew : n ∉ places ++ made) (hfresh : v.fresh = u.fresh + 1) (hworld : v.world = u.world)
    (hbound : ∀ other b, v.table.get? other = some b →
      u.table.get? other = some b ∨ b = .make u.fresh name signature (S.callable n)) :
    Stocked S places (made ++ [n]) s v := by
  refine ⟨⟨?_, fun {other b} hb => ?_⟩, fun m hm => ?_, hworld ▸ h.kept⟩
  · rw [hfresh, hworld, ← List.append_assoc]
    exact h.placed.books.add hn hnew
  · rw [← List.append_assoc]
    rcases hbound other b hb with hold | rfl
    · exact (h.placed.bound hold).append [n]
    · refine ⟨n, ?_, rfl⟩
      rw [show (Binding.make u.fresh name signature (S.callable n)).id = u.fresh from rfl,
        ← h.placed.books.count, List.getElem?_concat_length]
  · rcases List.mem_append.mp hm with hm | hm
    · exact h.new m hm
    · exact List.mem_singleton.mp hm ▸ hstocked

/-- The place is on the shelf and has not been given away. -/
def Free (S : Shelf σ κ) (places : List Nat) (s : Session σ) (n : Nat) : Prop :=
  n < (S.states s.world).length ∧ n ∉ places

/-- What others are given lies beyond the places that were there before. -/
theorem Free.stocked {n : Nat} (h : Free S places s n) (hmade : Stocked S places made s u) :
    Free S (places ++ made) u n := by
  refine ⟨Nat.lt_of_lt_of_le h.1 hmade.kept.length_le, fun hmem => ?_⟩
  rcases List.mem_append.mp hmem with hmem | hmem
  · exact h.2 hmem
  · exact Nat.not_lt.mpr (hmade.new n hmem) h.1

/-- A place that has just been stocked lies beyond all that were given away. -/
theorem Placed.free_of_change (h : s.Placed S places) {change : σ → σ} {n : Nat}
    (hgrown : S.states s.world <+: S.states (change s.world))
    (hn : Free S places s n ∨
      (S.states s.world).length ≤ n ∧ n < (S.states (change s.world)).length) :
    Free S places { s with world := change s.world } n := by
  rcases hn with hold | ⟨hfrom, hto⟩
  · exact ⟨Nat.lt_of_lt_of_le hold.1 hgrown.length_le, hold.2⟩
  · exact ⟨hto, fun hmem => Nat.not_lt.mpr hfrom (h.books.inside n hmem)⟩

/-- The cells that a request leaves are those that its run has left, but for the one of its
name. -/
theorem get?_of_settled {work : Signature → Plan σ} {signature : Signature}
    {outcome : Outcome (Except ResolveError (Callable σ))} (hs : s.table.WellFormed)
    (run : (work signature).run (s.begun name signature) = (outcome, v)) (hended : outcome ≠ .stuck)
    {t : Table σ} {c : Cell σ}
    (ht : ∀ other, t.cellOf other = (v.table.setCell (s.table.acquire name).1 c).cellOf other)
    {other : String} {b : Binding σ} (hb : t.get? other = some b) :
    v.table.get? other = some b ∨ c.binding? = some b := by
  have hgrows := ((work signature).run_course (hs.opened name) run hended).grows
  rw [Table.get?_eq_cellOf, ht, hgrows.cellOf_settled hs] at hb
  split at hb
  · exact .inr hb
  · rw [← Table.get?_eq_cellOf] at hb
    exact .inl hb

/-- What a run leaves: places for what was made, and one more that is not given away yet if it gives
a callable. -/
def Leaves (S : Shelf σ κ) (places : List Nat) (mine : Nat → Prop) (s : Session σ)
    (outcome : Outcome (Except ResolveError (Callable σ))) (u : Session σ) : Prop :=
  ∃ made, Stocked S places made s u ∧ ∀ callable, outcome = .returned (.ok callable) →
    ∃ n, callable = S.callable n ∧ (mine n ∨ (S.states s.world).length ≤ n) ∧
      n < (S.states u.world).length ∧ n ∉ places ++ made

/-- **Every binding that a request makes gets a place of its own.** -/
theorem request_stocked {work : Signature → Plan σ} {outcome : Outcome (Answer σ)}
    (hs : s.table.WellFormed) (h : s.Placed S places)
    (hrequest : request name text (fun signature => (work signature).run) s = (outcome, u))
    (hwork : ∀ signature outcome v,
      (work signature).run (s.begun name signature) = (outcome, v) →
        Leaves S places (fun _ => False) (s.begun name signature) outcome v) :
    ∃ made, Stocked S places made s u := by
  have hcell := cellOf_eq_cell_acquire s.table name
  -- a run leaves places for what it has made, counted from the beginning of the request
  have hrun : ∀ {signature outcome v},
      (work signature).run (s.begun name signature) = (outcome, v) →
        ∃ made, Stocked S places made s v ∧ ∀ callable, outcome = .returned (.ok callable) →
          ∃ n, callable = S.callable n ∧ (S.states s.world).length ≤ n ∧
            n < (S.states v.world).length ∧ n ∉ places ++ made := by
    intro signature outcome v run
    obtain ⟨made, hmade, hgiven⟩ := hwork signature outcome v run
    refine ⟨made, ⟨hmade.placed, hmade.new, hmade.kept⟩, fun callable hcallable => ?_⟩
    obtain ⟨n, hn, hmine | hstocked, hrest⟩ := hgiven callable hcallable
    · exact hmine.elim
    · exact ⟨n, hn, hstocked, hrest⟩
  cases requested_of_request hrequest with
  | hit cell =>
    refine ⟨[], h.stocked rfl rfl fun other b hb => ?_⟩
    exact (Table.get?_acquire ..).symm.trans ((Table.get?_release ..).symm.trans hb)
  | blocked cell =>
    exact ⟨[], h.stocked rfl rfl fun other b hb => (Table.get?_acquire ..).symm.trans hb⟩
  | refused cell parsed =>
    have hcells := (request_of_error hs (hcell.trans cell) parsed hrequest).1
    refine ⟨[], h.stocked rfl rfl fun other b hb => ?_⟩
    rw [Table.get?_eq_cellOf] at hb ⊢
    rwa [hcells] at hb
  | @accepted signature callable v cell parsed run =>
    obtain ⟨made, hmade, hgiven⟩ := hrun run
    obtain ⟨n, rfl, hstocked, hn, hnew⟩ := hgiven callable rfl
    refine ⟨made ++ [n], hmade.bind name signature hn hstocked hnew rfl rfl fun other b hb => ?_⟩
    refine (get?_of_settled hs run (by simp) (fun _ => Table.cellOf_release ..) hb).imp_right ?_
    exact fun hb => (Option.some.inj hb).symm
  | @failed signature error v cell parsed run =>
    obtain ⟨made, hmade, -⟩ := hrun run
    have hgrows := ((work signature).run_course (hs.opened name) run (by simp)).grows
    have hi := hgrows.wellFormed.inside (hgrows.position?_of_opened hs)
    refine ⟨made, hmade.emptied rfl rfl fun other b hb => ?_⟩
    exact (get?_of_settled (c := .empty) hs run (by simp)
      (fun other => Table.cellOf_abandoned hi name other) hb).resolve_right (by simp [Cell.binding?])
  | @panicked signature cause v cell parsed run =>
    obtain ⟨made, hmade, -⟩ := hrun run
    refine ⟨made, hmade.emptied rfl rfl fun other b hb => ?_⟩
    exact (get?_of_settled (c := .empty) hs run (by simp) (fun _ => Table.cellOf_release ..)
      hb).resolve_right (by simp [Cell.binding?])
  | stuck cell parsed run =>
    obtain ⟨made, hmade, -⟩ := hrun run
    exact ⟨made, hmade⟩

/-- **A run gives a callable from a place that is not given away.** -/
theorem run_stocked (p : Plan σ) {mine : Nat → Prop} {outcome} (hp : p.Stocks S mine)
    (hs : s.table.WellFormed) (h : s.Placed S places)
    (hmine : ∀ n, mine n → Free S places s n) (hrun : p.run s = (outcome, u)) : Leaves S places mine s outcome u := by
  induction p generalizing s u places mine outcome with
  | answer result =>
    cases hrun
    refine ⟨[], .refl h, fun callable hcallable => ?_⟩
    cases hcallable
    obtain ⟨n, hn, rfl⟩ := hp
    obtain ⟨hlt, hnew⟩ := hmine n hn
    exact ⟨n, rfl, .inl hn, hlt, by rwa [List.append_nil]⟩
  | panic cause =>
    cases hrun
    exact ⟨[], .refl h, by simp⟩
  | stuck =>
    cases hrun
    exact ⟨[], .refl h, by simp⟩
  | tell event next ih =>
    obtain ⟨made, hmade, hgiven⟩ :=
      ih (s := s.tell [event]) hp hs ⟨h.books, h.bound⟩ hmine hrun
    exact ⟨made, ⟨hmade.placed, hmade.new, hmade.kept⟩, hgiven⟩
  | look name next ih => exact ih _ (hp _) hs h hmine hrun
  | step change next ih =>
    obtain ⟨hgrown, hnext⟩ := hp s.world
    have hle := hgrown.length_le
    obtain ⟨made, hmade, hgiven⟩ := ih s.world (s := { s with world := change s.world }) hnext hs
      ⟨h.books.mono hle, h.bound⟩ (fun n hn => h.free_of_change hgrown (hn.imp_left (hmine n))) hrun
    refine ⟨made, ⟨hmade.placed, fun n hn => Nat.le_trans hle (hmade.new n hn),
      hgrown.trans hmade.kept⟩, fun callable hcallable => ?_⟩
    obtain ⟨n, hn, hfrom, hrest⟩ := hgiven callable hcallable
    refine ⟨n, hn, ?_, hrest⟩
    rcases hfrom with (hold | ⟨hstocked, -⟩) | hstocked
    · exact .inl hold
    · exact .inr hstocked
    · exact .inr (Nat.le_trans hle hstocked)
  | request name text work next ihwork ihnext =>
    obtain ⟨hwork, hnext⟩ := hp
    rw [Plan.run, Act.andThen] at hrun
    rcases hrequest : request name text (fun signature => (work signature).run) s with
      ⟨given | cause | _, v⟩
    all_goals
      rw [hrequest] at hrun
      obtain ⟨made, hmade⟩ := request_stocked hs h hrequest fun signature outcome v run =>
        ihwork signature (hwork signature) (hs.opened name) (h.begun hs signature)
          (fun _ => False.elim) run
    · have hv : v.table.WellFormed := (request_course hs hrequest (by simp) fun signature =>
        (work signature).run_course).grows.wellFormed
      obtain ⟨more, hmore, hgiven⟩ := ihnext given (hnext given) hv hmade.placed
        (fun n hn => (hmine n hn).stocked hmade) hrun
      refine ⟨made ++ more, hmade.trans hmore, fun callable hcallable => ?_⟩
      obtain ⟨n, hn, hfrom, hlt, hnew⟩ := hgiven callable hcallable
      refine ⟨n, hn, hfrom.imp_right (Nat.le_trans hmade.kept.length_le), hlt, ?_⟩
      rwa [← List.append_assoc]
    · cases hrun
      exact ⟨made, hmade, by simp⟩
    · cases hrun
      exact ⟨made, hmade, by simp⟩

/-- **Requests that are served get places for what they make.** -/
theorem serve_stocked {resolver : Resolver σ} (hresolver : resolver.Stocks S)
    (requests : List (String × String)) (hs : s.table.WellFormed) (h : s.Placed S places) :
    ∃ made, Stocked S places made s (serve resolver requests s) := by
  have hserved : (serve resolver requests s).table.WellFormed ∧
      ∃ made, Stocked S places made s (serve resolver requests s) := by
    refine serve_keeps (P := fun u => u.table.WellFormed ∧ ∃ made, Stocked S places made s u)
      (fun name text u hu => ?_) requests ⟨hs, [], .refl h⟩
    obtain ⟨hwf, made, hmade⟩ := hu
    have hresolve : resolve resolver name text u = (_, (resolve resolver name text u).2) := rfl
    obtain ⟨more, hmore⟩ := request_stocked hwf hmade.placed hresolve fun signature outcome v run =>
      run_stocked _ (hresolver name signature) (hwf.opened name)
        (hmade.placed.begun hwf signature) (fun _ => False.elim) run
    exact ⟨(resolve_leads resolver hwf hresolve).evolves.wellFormed hwf, _, hmade.trans hmore⟩
  exact hserved.2

end

end Session

namespace Client

/-- What is bound or in the hands of the client has its place. -/
structure Placed (S : Shelf σ κ) (places : List Nat) (c : Client σ) : Prop where
  books : S.Books places c.contexts.fresh c.contexts.world
  bound : ∀ {b}, c.contexts.Binds b → S.Holds places b
  hands : ∀ {b}, c.Hands b → S.Holds places b

/-- The change leaves the shelf alone. -/
def Spares (S : Shelf σ κ) (f : σ → σ) : Prop := ∀ world, S.states (f world) = S.states world

/-- What the calls of a binding are given, and what they are answered. -/
def exchanges (id : Nat) : Client σ → List (Command σ) → List (List Value × Reply) :=
  along fun c command => (c.call? command).toList.filterMap fun call =>
    if call.binding.id = id then
      some (call.args, (call.binding.callable call.args c.contexts.world).1)
    else none

section

variable {S : Shelf σ κ} {places : List Nat} {c d : Client σ} {command : Command σ}
  {history later : List (Command σ)} {b : Binding σ} {n : Nat} {k : κ}

/-- The places of a client, from those of what is bound. -/
theorem Did.placed_of (h : Did c command d) (placed : c.Placed S places) {made : List Nat}
    (books : S.Books (places ++ made) d.contexts.fresh d.contexts.world)
    (bound : ∀ {b}, d.contexts.Binds b → c.contexts.Binds b ∨ S.Holds (places ++ made) b) :
    d.Placed S (places ++ made) := by
  have hbound : ∀ {b}, d.contexts.Binds b → S.Holds (places ++ made) b := fun hb => by
    rcases bound hb with hold | hnew
    · exact (placed.bound hold).append made
    · exact hnew
  refine ⟨books, hbound, fun hb => ?_⟩
  rcases h.hands_or_binds hb with hold | hnew
  · exact (placed.hands hold).append made
  · exact hbound hnew

/-- **Every binding has a place of its own**, and keeps it whatever the client does. -/
theorem Did.placed (h : Did c command d) (hc : c.contexts.WellFormed) (placed : c.Placed S places)
    (stocks : c.contexts.resolver.Stocks S) (spares : ∀ f, command = .change f → Spares S f) :
    ∃ made, d.Placed S (places ++ made) := by
  have hkept : ∀ {world : σ}, (S.states world).length = (S.states c.contexts.world).length →
      S.Books (places ++ []) c.contexts.fresh world := by
    intro world hlength
    rw [List.append_nil]
    exact placed.books.mono (Nat.le_of_eq hlength.symm)
  have hdid := h
  cases h with
  | added =>
    refine ⟨[], hdid.placed_of placed (hkept rfl) ?_⟩
    rintro b ⟨i, t, name, ht, hb⟩
    rw [Contexts.table?_add] at ht
    split at ht
    · cases ht
      cases hb
    · exact .inl ⟨i, t, name, ht, hb⟩
  | dropped i =>
    refine ⟨[], hdid.placed_of placed (hkept rfl) ?_⟩
    rintro b ⟨j, t, name, ht, hb⟩
    rw [Contexts.table?_drop] at ht
    split at ht
    · cases ht
    · exact .inl ⟨j, t, name, ht, hb⟩
  | changed f =>
    exact ⟨[], hdid.placed_of placed (hkept (congrArg List.length (spares f rfl _))) .inl⟩
  | called asks call =>
    obtain ⟨n, hn, hcallable⟩ := placed.hands (hands_of_call call)
    have hinside := placed.books.inside n (List.mem_of_getElem? hn)
    obtain ⟨-, hleft⟩ := S.own _ (List.getElem?_eq_getElem hinside)
    rw [← hcallable] at hleft
    exact ⟨[], hdid.placed_of placed (hkept ((congrArg List.length hleft).trans List.length_set))
      .inl⟩
  | handed asks call contexts hands =>
    refine ⟨[], hdid.placed_of placed (contexts ▸ hkept rfl) fun hb => ?_⟩
    rw [contexts] at hb
    exact .inl hb
  | absent asks table => exact ⟨[], hdid.placed_of placed (hkept rfl) .inl⟩
  | @served _ i requests t events _ asks table contexts hands =>
    have hs : (c.contexts.session t).Placed S places :=
      ⟨placed.books, fun {name b} hb => placed.bound ⟨i, t, name, table, hb⟩⟩
    obtain ⟨made, hmade⟩ := Session.serve_stocked stocks requests (hc i t table) hs
    refine ⟨made, hdid.placed_of placed (contexts ▸ hmade.placed.books) ?_⟩
    rintro b ⟨j, t', name, ht, hb⟩
    rw [contexts, Contexts.table?_leave table] at ht
    split at ht
    · cases ht
      exact .inr (hmade.placed.bound hb)
    · exact .inl ⟨j, t', name, ht, hb⟩

/-- What a command makes of the state of a binding. -/
def moved (S : Shelf σ κ) (c : Client σ) (id : Nat) (command : Command σ) (k : κ) : κ :=
  match c.call? command with
  | some call => if call.binding.id = id then (S.turn k call.args).2 else k
  | none => k

/-- **Nothing moves the state of a binding but its own calls.** -/
theorem state_obey (hc : c.contexts.WellFormed) (placed : c.Placed S places)
    (stocks : c.contexts.resolver.Stocks S) (spares : ∀ f, command = .change f → Spares S f)
    {id : Nat} (hn : places[id]? = some n) (hk : (S.states c.contexts.world)[n]? = some k) :
    (S.states (c.obey command).2.contexts.world)[n]? = some (c.moved S id command k) := by
  have hstill : c.call? command = none → c.moved S id command k = k := fun hcall => by
    rw [moved, hcall]
  have hdid := did_of_obey hc command
  generalize (c.obey command).2 = d at hdid ⊢
  cases hdid with
  | changed f =>
    rw [hstill rfl, ← hk]
    exact congrArg (·[n]?) (spares f rfl _)
  | @called _ call events asks hcall =>
    obtain ⟨m, hm, hcallable⟩ := placed.hands (hands_of_call hcall)
    have hinside := placed.books.inside m (List.mem_of_getElem? hm)
    obtain ⟨-, hleft⟩ := S.own call.args (List.getElem?_eq_getElem hinside)
    rw [← hcallable] at hleft
    rw [moved, hcall, Client.called]
    simp only [hleft]
    by_cases hid : call.binding.id = id
    · obtain rfl : m = n := Option.some.inj (hm.symm.trans (hid ▸ hn))
      have hsame := Option.some.inj ((List.getElem?_eq_getElem hinside).symm.trans hk)
      rw [if_pos hid, List.getElem?_set_self hinside, hsame]
    · have hne : m ≠ n := by
        rintro rfl
        obtain ⟨hlt, heq⟩ := List.getElem?_eq_some_iff.mp hm
        obtain ⟨hlt', heq'⟩ := List.getElem?_eq_some_iff.mp hn
        exact hid ((List.Nodup.getElem_inj_iff placed.books.apart).mp (heq.trans heq'.symm))
      rw [if_neg hid, List.getElem?_set_ne hne, hk]
  | handed asks call contexts hands => rw [contexts, hstill call, hk]
  | absent asks table =>
    rw [hstill (by cases command <;> first | rfl | cases asks), hk]
  | @served _ i requests t events _ asks table contexts hands =>
    have hs : (c.contexts.session t).Placed S places :=
      ⟨placed.books, fun {name b} hb => placed.bound ⟨i, t, name, table, hb⟩⟩
    obtain ⟨made, hmade⟩ := Session.serve_stocked stocks requests (hc i t table) hs
    obtain ⟨new, hnew⟩ := hmade.kept
    rw [hstill (by cases command <;> first | rfl | cases asks), contexts]
    refine (congrArg (·[n]?) hnew).symm.trans ?_
    exact (List.getElem?_append_left (List.getElem?_eq_some_iff.mp hk).1).trans hk
  | _ => exact hk

/-- **A binding answers its calls in turn**, whatever else happens in between. -/
theorem exchanges_eq_turns (hc : c.contexts.WellFormed) (placed : c.Placed S places)
    (stocks : c.contexts.resolver.Stocks S) (spares : ∀ f, .change f ∈ later → Spares S f)
    {id : Nat} (hn : places[id]? = some n) (hk : (S.states c.contexts.world)[n]? = some k) :
    (c.exchanges id later).map Prod.snd = S.turns k ((c.exchanges id later).map Prod.fst) := by
  induction later generalizing c places k with
  | nil => rfl
  | cons command later ih =>
    have hcommand : ∀ f, command = .change f → Spares S f :=
      fun f hf => spares f (hf ▸ List.mem_cons_self)
    have hdid := did_of_obey hc command
    obtain ⟨made, hmade⟩ := hdid.placed hc placed stocks hcommand
    have hlt := (List.getElem?_eq_some_iff.mp hn).1
    have hrest := ih (hdid.wellFormed hc) hmade (hdid.resolver ▸ stocks)
      (fun f hf => spares f (List.mem_cons_of_mem _ hf))
      ((List.getElem?_append_left hlt).trans hn) (state_obey hc placed stocks hcommand hn hk)
    rw [exchanges, along]
    change (_ ++ exchanges id (c.obey command).2 later).map Prod.snd =
      S.turns k ((_ ++ exchanges id (c.obey command).2 later).map Prod.fst)
    rw [List.map_append, List.map_append, hrest, moved]
    cases hcall : c.call? command with
    | none => rfl
    | some call =>
      by_cases hid : call.binding.id = id
      · -- its own call finds the state as the last one has left it
        obtain ⟨m, hm, hcallable⟩ := placed.hands (hands_of_call hcall)
        obtain rfl : m = n := Option.some.inj (hm.symm.trans (hid ▸ hn))
        obtain ⟨hreply, -⟩ := S.own call.args hk
        rw [← hcallable] at hreply
        simp only [Option.toList, List.filterMap_cons, List.filterMap_nil, if_pos hid,
          List.map_cons, List.map_nil, List.singleton_append, Shelf.turns, hreply]
      · simp only [Option.toList, List.filterMap_cons, List.filterMap_nil, if_neg hid,
          List.map_nil, List.nil_append]

theorem placed_start (S : Shelf σ κ) (resolver : Resolver σ) (world : σ) :
    (start resolver world).Placed S [] := by
  refine ⟨⟨rfl, .nil, nofun⟩, ?_, ?_⟩
  · rintro b ⟨i, t, name, ht, hb⟩
    rw [table?_start ht] at hb
    cases hb
  · rintro b (hb | ⟨m, hm, -⟩)
    · cases hb
    · cases hm

theorem placed_obeyAll (hc : c.contexts.WellFormed) (placed : c.Placed S places)
    (stocks : c.contexts.resolver.Stocks S) (history : List (Command σ))
    (spares : ∀ f, .change f ∈ history → Spares S f) : ∃ made, (c.obeyAll history).Placed S (places ++ made) := by
  induction history generalizing c places with
  | nil => exact ⟨[], by rwa [List.append_nil]⟩
  | cons command history ih =>
    have hdid := did_of_obey hc command
    obtain ⟨made, hmade⟩ := hdid.placed hc placed stocks fun f hf =>
      spares f (hf ▸ List.mem_cons_self)
    obtain ⟨more, hmore⟩ := ih (hdid.wellFormed hc) hmade (hdid.resolver ▸ stocks)
      fun f hf => spares f (List.mem_cons_of_mem _ hf)
    exact ⟨made ++ more, List.append_assoc .. ▸ hmore⟩

end

end Client

end NativeLink
