import Mathlib.Data.List.Induction
import NativeLink.Proofs.Client.Deeds
import NativeLink.Proofs.Session.Numbering

/-!
# The birth of a binding

Every binding that a client has seen was made by one command of its history, in one context.
`Client.Born` names the moment: the history splits at a command that makes requests in that
context, and the number of the binding lies between the counts before and after it.

The numbers keep the moments apart, and a command makes requests in one context only.  So two
bindings that were made in different contexts never have the same number
(`Client.Born.id_ne`), however late one looks at them and whether the contexts are still there
or not.

As in `Session.Mints`, a birth carries a property: of the binding, in the world in which the
command was given and with the requests that it made.
-/

namespace NativeLink

variable {σ : Type}

namespace Client

/-- What a resolver makes when requests are served has the property. -/
def Endows (P : σ → List (String × String) → Binding σ → Prop) (resolver : Resolver σ) : Prop :=
  ∀ (requests : List (String × String)) (s : Session σ), s.table.WellFormed →
    s.Mints (P s.world requests) (Session.serve resolver requests s)

/-- The binding was made by a command of the history, in the context `i`. -/
def Born (P : σ → List (String × String) → Binding σ → Prop) (c : Client σ) (history : List (Command σ)) (i : Nat)
    (b : Binding σ) : Prop :=
  ∃ before command after requests, history = before ++ command :: after ∧
    command.asks = some (i, requests) ∧
    (c.obeyAll before).contexts.fresh ≤ b.id ∧
    b.id < (c.obeyAll (before ++ [command])).contexts.fresh ∧
    P (c.obeyAll before).contexts.world requests b

/-- All resolvers endow their bindings with nothing. -/
theorem endows_true (resolver : Resolver σ) : Endows (fun _ _ _ => True) resolver := by
  intro requests s hs
  have hkept : (Session.serve resolver requests s).table.WellFormed ∧
      s.Mints (fun _ => True) (Session.serve resolver requests s) := by
    refine Session.serve_keeps (P := fun u => u.table.WellFormed ∧ s.Mints (fun _ => True) u)
      (fun name text u hu => ?_) requests ⟨hs, .refl s⟩
    obtain ⟨hwf, hmints⟩ := hu
    have hresolve : Session.resolve resolver name text u =
      (_, (Session.resolve resolver name text u).2) := rfl
    refine ⟨(Session.resolve_leads resolver hwf hresolve).evolves.wellFormed hwf,
      hmints.trans (Session.request_mints hwf hresolve (fun signature => ?_) ?_)⟩
    · exact Session.run_mints _ (hwf.opened name)
    · exact fun _ _ _ _ _ => trivial
  exact hkept.2

section

variable {c d : Client σ} {command : Command σ}

/-! ## What a command keeps -/

namespace Did

theorem resolver (h : Did c command d) : d.contexts.resolver = c.contexts.resolver := by
  cases h with
  | handed asks call contexts hands => rw [contexts]
  | served asks table contexts hands =>
    rw [contexts]
    rfl
  | _ => rfl

theorem wellFormed (h : Did c command d) (hc : c.contexts.WellFormed) :
    d.contexts.WellFormed := by
  intro j t ht
  cases h with
  | added =>
    rw [Contexts.table?_add] at ht
    split at ht
    · cases ht
      exact Table.wellFormed_empty
    · exact hc j t ht
  | dropped i =>
    rw [Contexts.table?_drop] at ht
    split at ht
    · cases ht
    · exact hc j t ht
  | handed asks call contexts hands =>
    rw [contexts] at ht
    exact hc j t ht
  | @served _ _ requests t' events _ asks table contexts hands =>
    rw [contexts, Contexts.table?_leave table] at ht
    split at ht
    · cases ht
      exact (Session.serve_evolves requests (s := c.contexts.session t')
        (hc _ t' table)).wellFormed (hc _ t' table)
    · exact hc j t ht
  | _ => exact hc j t ht

/-- **What is bound in a context stays bound** until the context is dropped. -/
theorem kept (h : Did c command d) (hc : c.contexts.WellFormed) {j : Nat} {t : Table σ}
    (ht : c.contexts.table? j = some t) (there : ∀ i, command = .drop i → i ≠ j) :
    ∃ t', d.contexts.table? j = some t' ∧
      ∀ name b, t.get? name = some b → t'.get? name = some b := by
  cases h with
  | added =>
    refine ⟨t, ?_, fun _ _ => id⟩
    rw [Contexts.table?_add, if_neg (Nat.ne_of_lt (Contexts.lt_of_table? ht)), ht]
  | dropped i =>
    refine ⟨t, ?_, fun _ _ => id⟩
    rw [Contexts.table?_drop, if_neg (there i rfl), ht]
  | handed asks call contexts hands => exact ⟨t, by rw [contexts, ht], fun _ _ => id⟩
  | @served _ i requests t' events _ asks table contexts hands =>
    by_cases hij : i = j
    · subst hij
      obtain rfl : t' = t := Option.some.inj (table.symm.trans ht)
      refine ⟨_, by rw [contexts, Contexts.table?_leave table, if_pos rfl], fun name b => ?_⟩
      exact (Session.serve_evolves requests (s := c.contexts.session t') (hc _ t' table)).get?
        (hc _ t' table)
    · exact ⟨t, by rw [contexts, Contexts.table?_leave table, if_neg hij, ht], fun _ _ => id⟩
  | _ => exact ⟨t, ht, fun _ _ => id⟩

/-- What comes into the hands of the client comes out of a table. -/
theorem hands_or_binds (h : Did c command d) {b : Binding σ} (hb : d.Hands b) :
    c.Hands b ∨ d.contexts.Binds b := by
  cases h with
  | handed asks call contexts hands =>
    rw [contexts]
    exact hands b hb
  | served asks table contexts hands =>
    refine (hands b hb).imp_right fun ⟨name, hget⟩ => ?_
    rw [contexts]
    exact ⟨_, _, name, (Contexts.table?_leave table _ _).trans (if_pos rfl), hget⟩
  | _ => exact .inl hb

variable {P : σ → List (String × String) → Binding σ → Prop}

theorem fresh_le (h : Did c command d) (hc : c.contexts.WellFormed) :
    c.contexts.fresh ≤ d.contexts.fresh := by
  cases h with
  | handed asks call contexts hands => rw [contexts]
  | @served _ i requests t events _ asks table contexts hands =>
    rw [contexts]
    exact (endows_true c.contexts.resolver requests (c.contexts.session t) (hc i t table)).counted
  | _ => exact Nat.le_refl _

/-- **What is bound after a command** was bound before in the same context, or was made there by
the command. -/
theorem bound (h : Did c command d) (hc : c.contexts.WellFormed)
    (endows : Endows P c.contexts.resolver) {j : Nat} {t : Table σ} {name : String}
    {b : Binding σ} (ht : d.contexts.table? j = some t) (hb : t.get? name = some b) :
    (∃ t', c.contexts.table? j = some t' ∧ t'.get? name = some b) ∨
      ∃ requests, command.asks = some (j, requests) ∧ c.contexts.fresh ≤ b.id ∧
        b.id < d.contexts.fresh ∧ P c.contexts.world requests b := by
  cases h with
  | added =>
    rw [Contexts.table?_add] at ht
    split at ht
    · cases ht
      cases hb
    · exact .inl ⟨t, ht, hb⟩
  | dropped i =>
    rw [Contexts.table?_drop] at ht
    split at ht
    · cases ht
    · exact .inl ⟨t, ht, hb⟩
  | handed asks call contexts hands =>
    rw [contexts] at ht
    exact .inl ⟨t, ht, hb⟩
  | @served _ i requests t' events _ asks table contexts hands =>
    rw [contexts, Contexts.table?_leave table] at ht
    split at ht
    · next hij =>
      subst hij
      cases ht
      have hmints := endows requests (c.contexts.session t') (hc i t' table)
      rw [contexts]
      rcases hmints.bound hb with hold | hnew
      · exact .inl ⟨t', table, hold⟩
      · exact .inr ⟨requests, asks, hnew⟩
    · exact .inl ⟨t, ht, hb⟩
  | _ => exact .inl ⟨t, ht, hb⟩

end Did

end

/-! ## Histories -/

/-- The tables of a client that only starts are those of one new context. -/
theorem table?_start {resolver : Resolver σ} {world : σ} {i : Nat} {t : Table σ}
    (ht : (start resolver world).contexts.table? i = some t) : t = .empty := by
  cases i with
  | zero =>
    cases ht
    rfl
  | succ i => cases ht

section

variable {P : σ → List (String × String) → Binding σ → Prop} {resolver : Resolver σ} {world : σ} {c : Client σ}
  {history later : List (Command σ)} {i j : Nat} {b other : Binding σ}

theorem wellFormed_obeyAll (hc : c.contexts.WellFormed) (history : List (Command σ)) :
    (c.obeyAll history).contexts.WellFormed := by
  induction history generalizing c with
  | nil => exact hc
  | cons command history ih => exact ih ((did_of_obey hc command).wellFormed hc)

theorem resolver_obeyAll (hc : c.contexts.WellFormed) (history : List (Command σ)) :
    (c.obeyAll history).contexts.resolver = c.contexts.resolver := by
  induction history generalizing c with
  | nil => rfl
  | cons command history ih =>
    have hdid := did_of_obey hc command
    exact (ih (hdid.wellFormed hc)).trans hdid.resolver

theorem fresh_le_obeyAll (hc : c.contexts.WellFormed) (history : List (Command σ)) :
    c.contexts.fresh ≤ (c.obeyAll history).contexts.fresh := by
  induction history generalizing c with
  | nil => exact Nat.le_refl _
  | cons command history ih =>
    have hdid := did_of_obey hc command
    exact Nat.le_trans (hdid.fresh_le hc) (ih (hdid.wellFormed hc))

theorem wellFormed_start (resolver : Resolver σ) (world : σ) :
    (start resolver world).contexts.WellFormed := by
  intro i t ht
  rw [table?_start ht]
  exact Table.wellFormed_empty

theorem obeyAll_snoc (c : Client σ) (history : List (Command σ)) (command : Command σ) :
    c.obeyAll (history ++ [command]) = ((c.obeyAll history).obey command).2 := by
  rw [obeyAll_append]
  rfl

/-- A birth is no less so when the history goes on. -/
theorem Born.append (h : Born P c history i b) (later : List (Command σ)) :
    Born P c (history ++ later) i b := by
  obtain ⟨before, command, after, requests, rfl, hrest⟩ := h
  exact ⟨before, command, after ++ later, requests, by simp, hrest⟩

/-- A command that makes the binding is its birth. -/
theorem born_of_command {command : Command σ} {requests : List (String × String)}
    (asks : command.asks = some (i, requests))
    (first : (c.obeyAll history).contexts.fresh ≤ b.id)
    (last : b.id < ((c.obeyAll history).obey command).2.contexts.fresh)
    (made : P (c.obeyAll history).contexts.world requests b) : Born P c (history ++ [command]) i b :=
  ⟨history, command, [], requests, rfl, asks, first, by rwa [obeyAll_snoc], made⟩

/-- **Every binding has a birth**, in the context in which it is bound; and whatever a client has
in its hands was born in some context. -/
theorem born_of_obeyAll (endows : Endows P resolver) (world : σ) (history : List (Command σ)) :
    (∀ i t name b, ((start resolver world).obeyAll history).contexts.table? i = some t →
        t.get? name = some b → Born P (start resolver world) history i b) ∧
      ∀ b, ((start resolver world).obeyAll history).Hands b →
        ∃ i, Born P (start resolver world) history i b := by
  induction history using List.reverseRecOn with
  | nil =>
    refine ⟨fun i t name b ht hb => ?_, fun b hb => ?_⟩
    · rw [table?_start ht] at hb
      cases hb
    · rcases hb with hb | ⟨m, hm, -⟩
      · cases hb
      · cases hm
  | append_singleton history command ih =>
    obtain ⟨hbound, hhands⟩ := ih
    have hwf := wellFormed_obeyAll (wellFormed_start resolver world) history
    have hresolver : ((start resolver world).obeyAll history).contexts.resolver = resolver :=
      resolver_obeyAll (wellFormed_start resolver world) history
    have hdid := did_of_obey hwf command
    rw [obeyAll_snoc]
    have hborn : ∀ i t name b,
        (((start resolver world).obeyAll history).obey command).2.contexts.table? i = some t →
        t.get? name = some b → Born P (start resolver world) (history ++ [command]) i b := by
      intro i t name b ht hb
      rcases hdid.bound hwf (hresolver ▸ endows) ht hb with
        ⟨t', hold, hget⟩ | ⟨requests, asks, first, last, made⟩
      · exact (hbound i t' name b hold hget).append _
      · exact born_of_command asks first last made
    refine ⟨hborn, fun b hb => ?_⟩
    rcases hdid.hands_or_binds hb with hold | ⟨i, t, name, ht, hget⟩
    · obtain ⟨i, hi⟩ := hhands b hold
      exact ⟨i, hi.append _⟩
    · exact ⟨i, hborn i t name b ht hget⟩

/-- **Bindings of different contexts have different numbers.** -/
theorem Born.id_ne (hc : c.contexts.WellFormed) (h : Born P c history i b)
    (k : Born P c history j other) (hne : i ≠ j) : b.id ≠ other.id := by
  -- whichever of the two commands comes first, the count has passed its bindings by then
  have hlt : ∀ {before before' : List (Command σ)} {command : Command σ} {rest b b'},
      before' = before ++ command :: rest →
      b < (c.obeyAll (before ++ [command])).contexts.fresh →
      (c.obeyAll before').contexts.fresh ≤ b' → b < b' := by
    rintro before before' command rest b b' rfl hlast hfirst
    rw [show before ++ command :: rest = (before ++ [command]) ++ rest by simp,
      obeyAll_append] at hfirst
    have hmono := fresh_le_obeyAll (wellFormed_obeyAll hc (before ++ [command])) rest
    exact Nat.lt_of_lt_of_le hlast (Nat.le_trans hmono hfirst)
  obtain ⟨before, command, after, requests, rfl, asks, first, last, -⟩ := h
  obtain ⟨before', command', after', requests', hsplit, asks', first', last', -⟩ := k
  rcases List.append_eq_append_iff.mp hsplit with ⟨rest, hbefore, hafter⟩ | ⟨rest, hbefore, hafter⟩
  · cases rest with
    | nil =>
      cases hafter
      rw [asks'] at asks
      cases asks
      exact absurd rfl hne
    | cons x rest =>
      cases hafter
      exact Nat.ne_of_lt (hlt hbefore last first')
  · cases rest with
    | nil =>
      cases hafter
      rw [asks'] at asks
      cases asks
      exact absurd rfl hne
    | cons x rest =>
      cases hafter
      exact Nat.ne_of_gt (hlt hbefore last' first)

end

end Client

end NativeLink
