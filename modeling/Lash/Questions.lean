/-!
# Computations that ask questions

A computation that may ask questions of something outside it, and what it comes to
once something answers. Which questions it asks depends on the answers before them.
Two answerers that agree on the questions asked of one of them give one result.
-/

namespace Questions

inductive Asking (Q : Type) (Answer : Q → Type) (α : Type) where
  | done (value : α)
  | ask (question : Q) (next : Answer question → Asking Q Answer α)

variable {Q : Type} {Answer : Q → Type} {α β : Type}

namespace Asking

def bind (m : Asking Q Answer α) (f : α → Asking Q Answer β) : Asking Q Answer β :=
  match m with
  | .done value => f value
  | .ask question next => .ask question fun answer => (next answer).bind f

instance : Monad (Asking Q Answer) where
  pure := .done
  bind := .bind

/-- One question, and its answer. -/
def question (q : Q) : Asking Q Answer (Answer q) := .ask q .done

/-- What the computation comes to. -/
def answered (oracle : (q : Q) → Answer q) : Asking Q Answer α → α
  | .done value => value
  | .ask q next => (next (oracle q)).answered oracle

/-- The questions it asks, in their order. -/
def asked (oracle : (q : Q) → Answer q) : Asking Q Answer α → List Q
  | .done _ => []
  | .ask q next => q :: (next (oracle q)).asked oracle

/-- The questions asked of one answerer decide the result for every other that agrees on them. -/
theorem answered_of_agree {oracle oracle' : (q : Q) → Answer q} {m : Asking Q Answer α}
    (agree : ∀ q ∈ m.asked oracle, oracle' q = oracle q) :
    m.answered oracle' = m.answered oracle := by
  induction m with
  | done value => rfl
  | ask q next ih =>
    have first : oracle' q = oracle q := agree q (by simp [asked])
    have later := ih (oracle q) fun q' hmem => agree q' (by simp [asked, hmem])
    calc (next (oracle' q)).answered oracle'
        = (next (oracle q)).answered oracle' := by rw [first]
      _ = (next (oracle q)).answered oracle := later

end Asking

end Questions
