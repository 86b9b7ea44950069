import Mathlib.Data.List.Forall2
import NetBoot.Proofs.Dialogue

namespace NetBoot.Dialogue

variable {Q A R S α β ε σ τ : Type} {d d' : Dialogue Q A α} {f f' : α → Dialogue Q A β}
  {q q' : Q} {next next' : A → Dialogue Q A α}

inductive Trace : Dialogue Q A α → List (Q × A) → α → Prop
  | done (a : α) : Trace (.done a) [] a
  | ask (q : Q) (next : A → Dialogue Q A α) (a : A) (log : List (Q × A)) (r : α) :
      Trace (next a) log r → Trace (.ask q next) ((q, a) :: log) r

section Trace

variable {log : List (Q × A)}

theorem trace_done {a r : α} : Trace (.done a) log r ↔ log = [] ∧ r = a := by
  constructor
  · intro h
    cases h
    exact ⟨rfl, rfl⟩
  · rintro ⟨rfl, rfl⟩
    exact .done r

theorem trace_ask {r : α} :
    Trace (.ask q next) log r ↔ ∃ a rest, log = (q, a) :: rest ∧ Trace (next a) rest r := by
  constructor
  · intro h
    cases h with
    | ask _ _ a rest _ h => exact ⟨a, rest, rfl, h⟩
  · rintro ⟨a, rest, rfl, h⟩
    exact .ask q next a rest r h

theorem trace_ask_done {outcome : A → α} {r : α} :
    Trace (.ask q fun a => .done (outcome a)) log r ↔ ∃ a, log = [(q, a)] ∧ r = outcome a := by
  rw [trace_ask]
  constructor
  · rintro ⟨a, rest, rfl, h⟩
    obtain ⟨rfl, rfl⟩ := trace_done.1 h
    exact ⟨a, rfl, rfl⟩
  · rintro ⟨a, rfl, rfl⟩
    exact ⟨a, [], rfl, .done _⟩

theorem trace_bind {r : β} :
    Trace (d.bind f) log r ↔
      ∃ first a rest, log = first ++ rest ∧ Trace d first a ∧ Trace (f a) rest r := by
  induction d generalizing log with
  | done a =>
      constructor
      · exact fun h => ⟨[], a, log, rfl, .done a, h⟩
      · rintro ⟨first, a', rest, rfl, hd, hf⟩
        obtain ⟨rfl, rfl⟩ := trace_done.1 hd
        exact hf
  | ask q next ih =>
      simp only [bind, trace_ask, ih]
      constructor
      · rintro ⟨a, _, rfl, first, b, rest, rfl, hd, hf⟩
        exact ⟨(q, a) :: first, b, rest, rfl, ⟨a, first, rfl, hd⟩, hf⟩
      · rintro ⟨_, b, rest, rfl, ⟨a, first, rfl, hd⟩, hf⟩
        exact ⟨a, first ++ rest, rfl, first, b, rest, rfl, hd, hf⟩

theorem trace_run (d : Dialogue Q A α) (answerer : Answerer Q A σ) (s : σ) :
    Trace d (d.run answerer s).log (d.run answerer s).result := by
  induction d generalizing s with
  | done a => exact .done a
  | ask q next ih => exact .ask q next _ _ _ (ih _ _)

theorem Holds.trace {p : List (Q × A) → Q → Prop} {post : List (Q × A) → α → Prop}
    {before : List (Q × A)} {r : α} (h : Holds p post before d) (ht : Trace d log r) :
    post (before ++ log) r := by
  induction ht generalizing before with
  | done a => simpa using holds_done.1 h
  | ask q next a log r _ ih => simpa using ih (h.2 a)

theorem trace_bind_except {x : ExceptT ε (Dialogue Q A) α} {f : α → ExceptT ε (Dialogue Q A) β}
    {r : Except ε β} :
    Trace (x >>= f).run log r ↔
      (∃ e, Trace x.run log (.error e) ∧ r = .error e) ∨
        ∃ first a rest, log = first ++ rest ∧ Trace x.run first (.ok a) ∧
          Trace (f a).run rest r := by
  rw [ExceptT.run_bind]
  refine trace_bind.trans ?_
  constructor
  · rintro ⟨first, e | a, rest, rfl, hx, hf⟩
    · obtain ⟨rfl, rfl⟩ := trace_done.1 hf
      exact .inl ⟨e, by rwa [List.append_nil], rfl⟩
    · exact .inr ⟨first, a, rest, rfl, hx, hf⟩
  · rintro (⟨e, hx, rfl⟩ | ⟨first, a, rest, rfl, hx, hf⟩)
    · exact ⟨log, .error e, [], (List.append_nil log).symm, hx, .done _⟩
    · exact ⟨first, .ok a, rest, rfl, hx, hf⟩

theorem trace_map_except {x : ExceptT ε (Dialogue Q A) α} {f : α → β} {r : Except ε β} :
    Trace (x >>= fun a => pure (f a)).run log r ↔ ∃ y, Trace x.run log y ∧ r = y.map f := by
  rw [trace_bind_except]
  constructor
  · rintro (⟨e, hx, rfl⟩ | ⟨first, a, rest, rfl, hx, hdone⟩)
    · exact ⟨.error e, hx, rfl⟩
    · obtain ⟨rfl, rfl⟩ := trace_done.1 hdone
      exact ⟨.ok a, by rwa [List.append_nil], rfl⟩
  · rintro ⟨e | a, hx, rfl⟩
    · exact .inl ⟨e, hx, rfl⟩
    · exact .inr ⟨log, a, [], (List.append_nil log).symm, hx, .done _⟩

end Trace

section Asks

variable {p p' : Q → Prop}

theorem Asks.trace {log : List (Q × A)} {r : α} (h : Asks p d) (ht : Trace d log r) :
    ∀ e ∈ log, p e.1 := by
  induction ht with
  | done a => exact fun e he => nomatch he
  | ask q next a log r _ ih =>
      cases h with
      | ask _ _ hq hnext =>
          intro e he
          rcases List.mem_cons.1 he with rfl | he
          · exact hq
          · exact ih (hnext a) e he

theorem Asks.mono (h : Asks p d) (himp : ∀ q, p q → p' q) : Asks p' d := by
  induction h with
  | done a => exact .done a
  | ask q next hq _ ih => exact .ask q next (himp q hq) ih

theorem Holds.asks {post : List (Q × A) → α → Prop} {before : List (Q × A)}
    (h : Holds (fun _ => p) post before d) : Asks p d := by
  induction d generalizing before with
  | done a => exact .done a
  | ask q next ih => exact .ask q next h.1 fun a => ih a (h.2 a)

end Asks

/-- Questions with their answers, and those that were put to answer them. -/
inductive Threads (asking : Q → Dialogue R S A) : List (Q × A) → List (R × S) → Prop
  | nil : Threads asking [] []
  | cons (q : Q) (a : A) (part : List (R × S)) (log : List (Q × A)) (rest : List (R × S)) :
      Trace (asking q) part a → Threads asking log rest →
        Threads asking ((q, a) :: log) (part ++ rest)

section Threads

variable {asking : Q → Dialogue R S A} {log log' : List (Q × A)} {wire : List (R × S)}

theorem exists_threads_of_trace {r : α} (h : Trace (d.through asking) wire r) :
    ∃ log, Trace d log r ∧ Threads asking log wire := by
  induction d generalizing wire with
  | done a =>
      obtain ⟨rfl, rfl⟩ := trace_done.1 h
      exact ⟨[], .done r, .nil⟩
  | ask q next ih =>
      obtain ⟨part, a, rest, rfl, hpart, hrest⟩ := trace_bind.1 h
      obtain ⟨log, hlog, hthreads⟩ := ih a hrest
      exact ⟨(q, a) :: log, .ask q next a log r hlog, .cons q a part log rest hpart hthreads⟩

theorem threads_append (h : Threads asking (log ++ log') wire) :
    ∃ first rest, wire = first ++ rest ∧ Threads asking log first ∧ Threads asking log' rest := by
  induction log generalizing wire with
  | nil => exact ⟨[], wire, rfl, .nil, h⟩
  | cons e log ih =>
      cases h with
      | cons q a part _ rest hpart hrest =>
          obtain ⟨first, last, rfl, hfirst, hlast⟩ := ih hrest
          exact ⟨part ++ first, last, (List.append_assoc _ _ _).symm,
            .cons q a part log first hpart hfirst, hlast⟩

theorem threads_singleton {q : Q} {a : A} (h : Threads asking [(q, a)] wire) :
    Trace (asking q) wire a := by
  cases h with
  | cons _ _ part _ _ hpart hnil =>
      cases hnil
      rwa [List.append_nil]

theorem Threads.exists_of_mem (h : Threads asking log wire) {e : R × S} (he : e ∈ wire) :
    ∃ q a part, (q, a) ∈ log ∧ Trace (asking q) part a ∧ e ∈ part := by
  induction h with
  | nil => exact nomatch he
  | cons q a part log rest hpart _ ih =>
      rcases List.mem_append.1 he with he | he
      · exact ⟨q, a, part, .head _, hpart, he⟩
      · obtain ⟨q', a', part', hmem, htrace, he⟩ := ih he
        exact ⟨q', a', part', .tail _ hmem, htrace, he⟩

theorem Threads.exists_parts (h : Threads asking log wire) :
    ∃ parts, wire = parts.flatten ∧
      List.Forall₂ (fun e part => Trace (asking e.1) part e.2) log parts := by
  induction h with
  | nil => exact ⟨[], rfl, .nil⟩
  | cons q a part log rest hpart _ ih =>
      obtain ⟨parts, rfl, hparts⟩ := ih
      exact ⟨part :: parts, rfl, .cons hpart hparts⟩

end Threads

section Steady

variable (answer : Q → A)

def steady : Answerer Q A Unit := fun q s => (answer q, s)

theorem result_done (a : α) : (done a : Dialogue Q A α).result (steady answer) () = a := rfl

theorem questions_done (a : α) : (done a : Dialogue Q A α).questions (steady answer) () = [] := rfl

theorem result_ask (q : Q) (next : A → Dialogue Q A α) :
    (ask q next).result (steady answer) () = (next (answer q)).result (steady answer) () := rfl

theorem questions_ask (q : Q) (next : A → Dialogue Q A α) :
    (ask q next).questions (steady answer) () =
      q :: (next (answer q)).questions (steady answer) () := rfl

theorem result_bind (d : Dialogue Q A α) (f : α → Dialogue Q A β) :
    (d.bind f).result (steady answer) () =
      (f (d.result (steady answer) ())).result (steady answer) () := by
  simp only [result, run_bind]

theorem questions_bind (d : Dialogue Q A α) (f : α → Dialogue Q A β) :
    (d.bind f).questions (steady answer) () =
      d.questions (steady answer) () ++
        (f (d.result (steady answer) ())).questions (steady answer) () := by
  simp only [questions, result, run_bind, List.map_append]

theorem result_bind_except (x : ExceptT ε (Dialogue Q A) α)
    (f : α → ExceptT ε (Dialogue Q A) β) :
    (x >>= f).run.result (steady answer) () =
      x.run.result (steady answer) () >>= fun a => (f a).run.result (steady answer) () := by
  rw [ExceptT.run_bind]
  refine (result_bind answer _ _).trans ?_
  cases x.run.result (steady answer) () <;> rfl

theorem result_through (asking : Q → Dialogue R S A) (given : R → S) (d : Dialogue Q A α) :
    (d.through asking).result (steady given) () =
      d.result (steady fun q => (asking q).result (steady given) ()) () := by
  induction d with
  | done a => rfl
  | ask q next ih => rw [through, result_bind, ih, result_ask]

theorem questions_through (asking : Q → Dialogue R S A) (given : R → S) (d : Dialogue Q A α) :
    (d.through asking).questions (steady given) () =
      (d.questions (steady fun q => (asking q).result (steady given) ()) ()).flatMap
        fun q => (asking q).questions (steady given) () := by
  induction d with
  | done a => rfl
  | ask q next ih => rw [through, questions_bind, ih, questions_ask, List.flatMap_cons]

end Steady

inductive Alike (m : Q → Q → Prop) : Dialogue Q A α → Dialogue Q A α → Prop
  | done (a : α) : Alike m (.done a) (.done a)
  | ask (q q' : Q) (next next' : A → Dialogue Q A α) :
      m q q' → (∀ a, Alike m (next a) (next' a)) → Alike m (.ask q next) (.ask q' next')

section Alike

variable {m : Q → Q → Prop}

theorem Alike.refl (hm : ∀ q, m q q) (d : Dialogue Q A α) : Alike m d d := by
  induction d with
  | done a => exact .done a
  | ask q next ih => exact .ask q q next next (hm q) ih

theorem Alike.bind (hd : Alike m d d') (hf : ∀ a, Alike m (f a) (f' a)) :
    Alike m (d.bind f) (d'.bind f') := by
  induction hd with
  | done a => exact hf a
  | ask q q' next next' hq _ ih => exact .ask q q' _ _ hq ih

theorem Alike.bind_except {x x' : ExceptT ε (Dialogue Q A) α}
    {f f' : α → ExceptT ε (Dialogue Q A) β} (hx : Alike m x.run x'.run)
    (hf : ∀ a, Alike m (f a).run (f' a).run) : Alike m (x >>= f).run (x' >>= f').run := by
  rw [ExceptT.run_bind, ExceptT.run_bind]
  refine hx.bind fun r => ?_
  cases r with
  | error e => exact .done _
  | ok a => exact hf a

theorem Alike.through {m' : R → R → Prop} {asking : Q → Dialogue R S A} (hd : Alike m d d')
    (hm : ∀ q q', m q q' → Alike m' (asking q) (asking q')) :
    Alike m' (d.through asking) (d'.through asking) := by
  induction hd with
  | done a => exact .done a
  | ask q q' next next' hq _ ih => exact (hm q q' hq).bind ih

theorem Alike.run (hd : Alike m d d') {answerer : Answerer Q A σ}
    (hanswer : ∀ q q' s, m q q' → answerer q s = answerer q' s) (s : σ) :
    (d.run answerer s).result = (d'.run answerer s).result ∧
      (d.run answerer s).state = (d'.run answerer s).state ∧
      List.Forall₂ (fun e e' => m e.1 e'.1 ∧ e.2 = e'.2) (d.run answerer s).log
        (d'.run answerer s).log := by
  induction hd generalizing s with
  | done a => exact ⟨rfl, rfl, .nil⟩
  | ask q q' next next' hq _ ih =>
      have hsame : answerer q s = answerer q' s := hanswer q q' s hq
      obtain ⟨hresult, hstate, hlog⟩ := ih (answerer q' s).1 (answerer q' s).2
      simp only [Dialogue.run, hsame]
      exact ⟨hresult, hstate, .cons ⟨hq, rfl⟩ hlog⟩

end Alike

end NetBoot.Dialogue
