import NativeLink.Cache.Request
import NativeLink.Scripted.Stock

/-!
# Enquiries

An enquiry is one request of a cache, laid down in advance with everything its
resolver does: first it makes the nested requests, whose answers it does not heed,
and then it decides.  Nested requests are enquiries themselves, so an enquiry is a
tree.  A panic inside the tree ends every request on the way to its root.
-/

namespace NativeLink

/-- A request, the requests its resolver makes first, and what it decides then. -/
inductive Enquiry where
  | ask (name text : String) (nested : List Enquiry) (decision : Decision)

/-- What a binding shows of itself. -/
structure Face where
  id : Nat
  name : String
  signature : Signature

/-- What a binding shows of itself. -/
def Binding.face {σ : Type} (b : Binding σ) : Face := ⟨b.id, b.name, b.signature⟩

/-- What the enquiries of a cache leave behind. -/
structure Enquiries where
  stock : Stock := []
  /-- The names whose resolver ran, with the signature, in order. -/
  runs : List (String × Signature) := []
  /-- The answers to nested requests, in the order they were given. -/
  answers : List (Except ResolveError Face) := []

instance : HasStock Enquiries := ⟨Enquiries.stock, fun stock e => { e with stock := stock }⟩

namespace Enquiry

instance : Inhabited Enquiry := ⟨.ask "" "" [] (.accept default)⟩

def name : Enquiry → String
  | .ask name _ _ _ => name

def text : Enquiry → String
  | .ask _ text _ _ => text

mutual

/-- The work of resolving the name of an enquiry. -/
def work : Enquiry → Signature → Plan Enquiries
  | .ask name _ nested decision => fun signature =>
    .step (fun e => { e with runs := e.runs ++ [(name, signature)] }) fun _ =>
      requests decision.plan nested

/-- The nested requests, whose answers do not matter to what follows. -/
def requests (final : Plan Enquiries) : List Enquiry → Plan Enquiries
  | [] => final
  | enquiry :: rest =>
    .request enquiry.name enquiry.text (work enquiry) fun answer =>
      .step (fun e => { e with answers := e.answers ++ [answer.map Binding.face] }) fun _ =>
        requests final rest

end

/-- Makes the request of an enquiry. -/
def run (e : Enquiry) : Act Enquiries (Answer Enquiries) :=
  Session.request e.name e.text fun signature => (e.work signature).run

end Enquiry

end NativeLink
