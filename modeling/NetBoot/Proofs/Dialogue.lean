import NetBoot.Http.Dialogue

namespace NetBoot.Dialogue

variable {Q A α β σ : Type} {p : List (Q × A) → Q → Prop}

/-- After `log`, whatever the answers, every question has the property `p` in view of what went
before it, and every end has the property `post`. -/
def Holds (p : List (Q × A) → Q → Prop) (post : List (Q × A) → α → Prop) :
    List (Q × A) → Dialogue Q A α → Prop
  | log, .done a => post log a
  | log, .ask q next => p log q ∧ ∀ a, Holds p post (log ++ [(q, a)]) (next a)

theorem holds_done {post : List (Q × A) → α → Prop} {log : List (Q × A)} {a : α} :
    Holds p post log (.done a) ↔ post log a := Iff.rfl

theorem holds_bind {post : List (Q × A) → β → Prop} {d : Dialogue Q A α}
    {f : α → Dialogue Q A β} {log : List (Q × A)} :
    Holds p post log (d.bind f) ↔ Holds p (fun log a => Holds p post log (f a)) log d := by
  induction d generalizing log with
  | done a => rfl
  | ask q next ih => simp only [bind, Holds, ih]

theorem Holds.mono {post post' : List (Q × A) → α → Prop} {d : Dialogue Q A α}
    {log : List (Q × A)} (h : Holds p post log d)
    (himp : ∀ log a, post log a → post' log a) : Holds p post' log d := by
  induction d generalizing log with
  | done a => exact himp log a h
  | ask q next ih => exact ⟨h.1, fun a => ih a (h.2 a)⟩

theorem Holds.run {post : List (Q × A) → α → Prop} {d : Dialogue Q A α} {log : List (Q × A)}
    (h : Holds p post log d) (answerer : Answerer Q A σ) (s : σ) :
    post (log ++ (d.run answerer s).log) (d.run answerer s).result := by
  induction d generalizing log s with
  | done a => simpa [Dialogue.run] using holds_done.1 h
  | ask q next ih => simpa [Dialogue.run] using ih _ (h.2 (answerer q s).1) (answerer q s).2

theorem Holds.questions {post : List (Q × A) → α → Prop} {d : Dialogue Q A α}
    {log : List (Q × A)} (h : Holds p post log d) (answerer : Answerer Q A σ) (s : σ)
    {before after : List (Q × A)} {q : Q} {a : A}
    (hlog : (d.run answerer s).log = before ++ (q, a) :: after) : p (log ++ before) q := by
  induction d generalizing log s before with
  | done r => simp [Dialogue.run] at hlog
  | ask q₀ next ih =>
      simp only [Dialogue.run] at hlog
      cases before with
      | nil =>
          simp only [List.nil_append, List.cons.injEq, Prod.mk.injEq] at hlog
          obtain ⟨⟨rfl, -⟩, -⟩ := hlog
          simpa using h.1
      | cons x before =>
          simp only [List.cons_append, List.cons.injEq] at hlog
          obtain ⟨rfl, hrest⟩ := hlog
          simpa using ih _ (h.2 _) _ hrest

section Transformers

variable {ε τ : Type} {log : List (Q × A)}

theorem run_bind_of_ask {x : ExceptT ε (Dialogue Q A) α} {q : Q} {outcome : A → Except ε α}
    (hx : x.run = .ask q fun a => .done (outcome a)) (f : α → ExceptT ε (Dialogue Q A) β) :
    (x >>= f).run = .ask q fun a =>
      match outcome a with
      | .ok r => (f r).run
      | .error e => .done (.error e) := by
  rw [ExceptT.run_bind, hx]
  refine congrArg (Dialogue.ask q) (funext fun a => ?_)
  change (Dialogue.done (outcome a)).bind _ = _
  cases outcome a <;> rfl

theorem holds_bind_except {post : List (Q × A) → Except ε β → Prop}
    {x : ExceptT ε (Dialogue Q A) α} {f : α → ExceptT ε (Dialogue Q A) β} :
    Holds p post log (x >>= f).run ↔
      Holds p (fun log r =>
        match r with
        | .ok a => Holds p post log (f a).run
        | .error e => post log (.error e)) log x.run := by
  rw [ExceptT.run_bind]
  refine holds_bind.trans ?_
  constructor <;> intro h <;> refine h.mono fun log r hr => ?_ <;> cases r <;> exact hr

theorem holds_bind_state {post : List (Q × A) → Except ε β × τ → Prop} {s : τ}
    {x : ExceptT ε (StateT τ (Dialogue Q A)) α} {f : α → ExceptT ε (StateT τ (Dialogue Q A)) β} :
    Holds p post log ((x >>= f).run.run s) ↔
      Holds p (fun log r =>
        match r with
        | (.ok a, s') => Holds p post log ((f a).run.run s')
        | (.error e, s') => post log (.error e, s')) log (x.run.run s) := by
  rw [ExceptT.run_bind, StateT.run_bind]
  refine holds_bind.trans ?_
  constructor <;> intro h <;> refine h.mono fun log r hr => ?_ <;>
    rcases r with ⟨_ | _, _⟩ <;> exact hr

theorem Holds.then_except {x : ExceptT ε (Dialogue Q A) α} {f : α → ExceptT ε (Dialogue Q A) β}
    (hx : Holds p (fun _ _ => True) log x.run)
    (hf : ∀ log a, Holds p (fun _ _ => True) log (f a).run) :
    Holds p (fun _ _ => True) log (x >>= f).run := by
  refine holds_bind_except.2 (hx.mono fun log r _ => ?_)
  cases r with
  | ok a => exact hf log a
  | error e => trivial

theorem Holds.then_state {s : τ} {x : ExceptT ε (StateT τ (Dialogue Q A)) α}
    {f : α → ExceptT ε (StateT τ (Dialogue Q A)) β}
    (hx : Holds p (fun _ _ => True) log (x.run.run s))
    (hf : ∀ log a s, Holds p (fun _ _ => True) log ((f a).run.run s)) :
    Holds p (fun _ _ => True) log ((x >>= f).run.run s) := by
  refine holds_bind_state.2 (hx.mono fun log r _ => ?_)
  rcases r with ⟨_ | a, s'⟩
  · trivial
  · exact hf log a s'

end Transformers

end NetBoot.Dialogue
