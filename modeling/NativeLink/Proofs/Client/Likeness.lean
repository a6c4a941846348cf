import NativeLink.Proofs.Client.Calls

/-!
# Clients that are alike

To say that something makes no difference to a client is to compare two clients: one to which
it has happened and one to which it has not.  They hold the same things in their hands, and their
contexts are related somehow, by `R`.  A command is answered alike by both if the contexts answer
it alike, because everything else that goes into a response lies in the hands of the client
(`Client.Alike.obey`).

What it is that contexts have to answer is `Client.Matches`.  The relation is a parameter, since
there is more than one thing that makes no difference.
-/

namespace NativeLink

variable {σ : Type}

/-- Two things done to contexts have the same outcome, and leave related contexts. -/
def Agree {α : Type} (R : Contexts σ → Contexts σ → Prop) (p q : Outcome α × Contexts σ) : Prop :=
  p.1 = q.1 ∧ R p.2 q.2

namespace Client

/-- Two clients with the same things in their hands, over related contexts. -/
structure Alike (R : Contexts σ → Contexts σ → Prop) (c d : Client σ) : Prop where
  contexts : R c.contexts d.contexts
  bindings : d.bindings = c.bindings
  operations : d.operations = c.operations

/-- The contexts of two clients do the same for a command. -/
def Matches (R : Contexts σ → Contexts σ → Prop) (c d : Client σ) : Command σ → Prop
  | .add =>
    c.contexts.add.1 = d.contexts.add.1 ∧ R c.contexts.add.2 d.contexts.add.2
  | .drop i => R (c.contexts.drop i) (d.contexts.drop i)
  | .resolve i name text => Agree R (c.contexts.resolve i name text) (d.contexts.resolve i name text)
  | .find i name =>
    (c.contexts.table? i).bind (·.get? name) = (d.contexts.table? i).bind (·.get? name)
  | .construct i o => Agree R (c.contexts.construct i o) (d.contexts.construct i o)
  | .probe i => Agree R (c.contexts.probe i) (d.contexts.probe i)
  | .change f =>
    R { c.contexts with world := f c.contexts.world } { d.contexts with world := f d.contexts.world }
  | .make _ _ => True
  | .copy _ => True
  | command => ∀ call, c.call? command = some call →
    ∃ reply events left left',
      call.binding.callable call.args c.contexts.world = (reply, events, left) ∧
      call.binding.callable call.args d.contexts.world = (reply, events, left') ∧
      ∀ told, R { c.contexts with world := left, log := c.contexts.log ++ told }
        { d.contexts with world := left', log := d.contexts.log ++ told }

/-- Two responses are the same, and the clients that are left are alike. -/
def Same (R : Contexts σ → Contexts σ → Prop) (p q : Response σ × Client σ) : Prop :=
  p.1 = q.1 ∧ Alike R p.2 q.2

namespace Alike

variable {R : Contexts σ → Contexts σ → Prop} {c d : Client σ}

theorem hand (h : Alike R c d) (b : Binding σ) : Same R (c.hand b) (d.hand b) := by
  unfold Client.hand number?
  rw [h.bindings]
  split
  · exact ⟨rfl, h⟩
  · exact ⟨rfl, h.contexts, rfl, h.operations⟩

theorem keep (h : Alike R c d) (o : Operation) (made : Except ResolveError (Invoker σ o.arity)) :
    Same R (c.keep o made) (d.keep o made) := by
  unfold Client.keep
  rw [h.operations]
  split
  · exact ⟨rfl, h.contexts, h.bindings, rfl⟩
  · exact ⟨rfl, h⟩

theorem after {α : Type} {p q : Outcome α × Contexts σ}
    {next : α → Client σ → Response σ × Client σ} (h : Alike R c d) (k : Agree R p q)
    (hnext : ∀ a {c d : Client σ}, Alike R c d → Same R (next a c) (next a d)) :
    Same R (c.after p next) (d.after q next) := by
  obtain ⟨houtcome, hcontexts⟩ := k
  have hleft : Alike R { c with contexts := p.2 } { d with contexts := q.2 } :=
    ⟨hcontexts, h.bindings, h.operations⟩
  unfold Client.after
  rw [← houtcome]
  cases p.1 with
  | returned a => exact hnext a hleft
  | panicked cause => exact ⟨rfl, hleft⟩
  | stuck => exact ⟨rfl, hleft⟩

theorem call? (h : Alike R c d) (command : Command σ) : d.call? command = c.call? command := by
  cases command <;> simp only [Client.call?, h.bindings, h.operations]

/-- A call is answered alike, whether it reaches its callable or not. -/
theorem called {command : Command σ} (h : Alike R c d) (calls : command.calls = true)
    (k : ∀ call, c.call? command = some call → ∃ reply events left left',
      call.binding.callable call.args c.contexts.world = (reply, events, left) ∧
      call.binding.callable call.args d.contexts.world = (reply, events, left') ∧
      ∀ told, R { c.contexts with world := left, log := c.contexts.log ++ told }
        { d.contexts with world := left', log := d.contexts.log ++ told }) :
    Same R (c.obey command) (d.obey command) := by
  cases hcall : c.call? command with
  | none =>
    have hrefusal : c.refusal command = d.refusal command := by
      cases command <;> simp only [refusal, h.bindings]
    rw [obey_of_no_call calls hcall, obey_of_no_call calls ((h.call? command).trans hcall)]
    exact ⟨hrefusal, h⟩
  | some call =>
    obtain ⟨reply, events, left, left', hc, hd, hR⟩ := k call hcall
    rw [obey_of_call hcall hc, obey_of_call ((h.call? command).trans hcall) hd]
    exact ⟨rfl, hR _, h.bindings, h.operations⟩

/-- **Clients that are alike are told the same**, and stay alike, if their contexts match. -/
theorem obey {command : Command σ} (h : Alike R c d) (k : Matches R c d command) :
    Same R (c.obey command) (d.obey command) := by
  cases command with
  | add => exact ⟨congrArg Response.context k.1, k.2, h.bindings, h.operations⟩
  | drop i => exact ⟨rfl, k, h.bindings, h.operations⟩
  | change f => exact ⟨rfl, k, h.bindings, h.operations⟩
  | resolve i name text =>
    refine h.after k fun answer c d h => ?_
    cases answer with
    | ok b => exact h.hand b
    | error error => exact ⟨rfl, h⟩
  | construct i o => exact h.after k fun made c d h => h.keep o made
  | probe i => exact h.after k fun support c d h => ⟨rfl, h⟩
  | find i name =>
    have hfound : (c.contexts.table? i).bind (·.get? name) = _ := k
    simp only [Client.obey, ← hfound]
    split
    · exact h.hand _
    · exact ⟨rfl, h⟩
  | make o i =>
    simp only [Client.obey, h.bindings]
    split
    · exact h.keep o _
    · exact ⟨rfl, h⟩
  | copy i =>
    simp only [Client.obey, h.operations]
    split
    · exact h.keep _ _
    · exact ⟨rfl, h⟩
  | run i numbers => exact h.called rfl k
  | call i args => exact h.called rfl k
  | invoke i n args => exact h.called rfl k

end Alike

end Client

end NativeLink
