import Intel8080.Proofs.Execution.Rollback
import Intel8080.Proofs.Interrupts.History

/-!
# What a history shows

Of a processor that is driven through a history, the host sees what the steps answer and
the devices see the accesses to them. Two processors with the same responses to every
history cannot be told apart from outside.
-/

namespace Intel8080

/-- The cycles or the fault of a step, and the accesses to ports that it makes. -/
structure Response where
  answer : Except Fault Nat
  accesses : List PortAccess

namespace Processor

variable {σ : Type}

def response (p : Processor σ) : Response :=
  ⟨p.step.1, p.logged.step.2.ports.device.2⟩

def reply (p : Processor σ) : Stimulus → List Response
  | .step => [p.response]
  | _ => []

/-- The responses of the steps of a history, in order. -/
def responses (p : Processor σ) : List Stimulus → List Response
  | [] => []
  | stimulus :: rest => p.reply stimulus ++ (p.respond stimulus).responses rest

def after (p : Processor σ) (history : List Stimulus) : Processor σ :=
  history.foldl respond p

@[simp] theorem after_nil (p : Processor σ) : p.after [] = p := rfl

@[simp] theorem after_cons (p : Processor σ) (stimulus : Stimulus) (rest : List Stimulus) :
    p.after (stimulus :: rest) = (p.respond stimulus).after rest := rfl

@[simp] theorem responses_nil (p : Processor σ) : p.responses [] = [] := rfl

@[simp] theorem responses_cons (p : Processor σ) (stimulus : Stimulus) (rest : List Stimulus) :
    p.responses (stimulus :: rest) = p.reply stimulus ++ (p.respond stimulus).responses rest := rfl

end Processor

end Intel8080
