namespace NetBoot

/-- A computation that puts questions to the outside and goes on with their answers. -/
inductive Dialogue (Q A : Type) (α : Type) where
  | done (result : α)
  | ask (question : Q) (next : A → Dialogue Q A α)

namespace Dialogue

variable {Q A R S α β γ σ : Type}

def bind : Dialogue Q A α → (α → Dialogue Q A β) → Dialogue Q A β
  | .done a, f => f a
  | .ask q next, f => .ask q fun a => (next a).bind f

instance : Monad (Dialogue Q A) where
  pure := .done
  bind := bind

theorem bind_done (d : Dialogue Q A α) : d.bind .done = d := by
  induction d with
  | done a => rfl
  | ask q next ih => simp only [bind]; congr; funext a; exact ih a

theorem bind_assoc (d : Dialogue Q A α) (f : α → Dialogue Q A β) (g : β → Dialogue Q A γ) :
    (d.bind f).bind g = d.bind fun a => (f a).bind g := by
  induction d with
  | done a => rfl
  | ask q next ih => simp only [bind]; congr; funext a; exact ih a

instance : LawfulMonad (Dialogue Q A) where
  map_const := rfl
  id_map d := bind_done d
  seqLeft_eq _ _ := by
    simp only [SeqLeft.seqLeft, Seq.seq, Functor.map, Function.comp_def]
    rw [bind_assoc]
    rfl
  seqRight_eq _ _ := by
    simp only [SeqRight.seqRight, Seq.seq, Functor.map, Function.comp_def, Function.const]
    rw [bind_assoc]
    exact (congrArg _ (funext fun _ => (bind_done _).symm))
  pure_seq _ _ := rfl
  bind_pure_comp _ _ := rfl
  bind_map _ _ := rfl
  pure_bind _ _ := rfl
  bind_assoc d f g := bind_assoc d f g

def question (q : Q) : Dialogue Q A A := .ask q .done

def through (answer : Q → Dialogue R S A) : Dialogue Q A α → Dialogue R S α
  | .done a => .done a
  | .ask q next => (answer q).bind fun a => (next a).through answer

abbrev Answerer (Q A σ : Type) := Q → σ → A × σ

structure Outcome (Q A α σ : Type) where
  result : α
  log : List (Q × A)
  state : σ

def run (answerer : Answerer Q A σ) : Dialogue Q A α → σ → Outcome Q A α σ
  | .done a, s => ⟨a, [], s⟩
  | .ask q next, s =>
      let p := answerer q s
      let rest := (next p.1).run answerer p.2
      { rest with log := (q, p.1) :: rest.log }

def result (answerer : Answerer Q A σ) (d : Dialogue Q A α) (s : σ) : α :=
  (d.run answerer s).result

def questions (answerer : Answerer Q A σ) (d : Dialogue Q A α) (s : σ) : List Q :=
  (d.run answerer s).log.map Prod.fst

theorem run_bind (answerer : Answerer Q A σ) (d : Dialogue Q A α) (f : α → Dialogue Q A β)
    (s : σ) :
    (d.bind f).run answerer s =
      let first := d.run answerer s
      let rest := (f first.result).run answerer first.state
      { rest with log := first.log ++ rest.log } := by
  induction d generalizing s with
  | done a => simp [bind, run]
  | ask q next ih => simp [bind, run, ih]

inductive Asks (p : Q → Prop) : Dialogue Q A α → Prop where
  | done (a : α) : Asks p (.done a)
  | ask (q : Q) (next : A → Dialogue Q A α) :
      p q → (∀ a, Asks p (next a)) → Asks p (.ask q next)

theorem Asks.bind {p : Q → Prop} {d : Dialogue Q A α} {f : α → Dialogue Q A β}
    (hd : Asks p d) (hf : ∀ a, Asks p (f a)) : Asks p (d.bind f) := by
  induction hd with
  | done a => exact hf a
  | ask q next hq _ ih => exact .ask q _ hq ih

theorem Asks.of_questions {p : Q → Prop} {d : Dialogue Q A α} (h : Asks p d)
    (answerer : Answerer Q A σ) (s : σ) : ∀ q ∈ d.questions answerer s, p q := by
  induction h generalizing s with
  | done a => simp [questions, run]
  | ask q next hq _ ih =>
      intro x hx
      simp only [questions, run, List.map_cons, List.mem_cons] at hx
      rcases hx with rfl | hx
      · exact hq
      · exact ih _ _ x hx

end Dialogue

end NetBoot
