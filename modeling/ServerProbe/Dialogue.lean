/-!
Dialogues: programs that ask questions and go on with the answers.

A dialogue is finished, or it asks a question and goes on with whatever the answer is. What the
questions are and what answers them is left open; many dialogues can run side by side, each waiting
where its question cannot be answered yet.
-/

namespace ServerProbe

inductive Dialogue (Q : Type) (A : Q → Type) (α : Type) where
  | done (a : α)
  | ask (q : Q) (next : A q → Dialogue Q A α)

namespace Dialogue

variable {Q : Type} {A : Q → Type} {α β : Type}

def bind : Dialogue Q A α → (α → Dialogue Q A β) → Dialogue Q A β
  | done a, f => f a
  | ask q next, f => ask q fun answer => bind (next answer) f

instance : Monad (Dialogue Q A) where
  pure := done
  bind := bind

def question (q : Q) : Dialogue Q A (A q) := ask q done

end Dialogue
end ServerProbe
