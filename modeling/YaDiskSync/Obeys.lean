import YaDiskSync.Prog
import Mathlib.Order.Defs.PartialOrder

/-! What a program asks as long as the answers it gets can be relied on. Such a contract speaks of
no world; in a world that learns more and more, and keeps its side of the contract by what it has
learnt, every run keeps an invariant. -/
namespace Prog

universe u

variable {E : Type u} {A : E → Type} {α β ε σ : Type}

/-- If every answer is as `R` says, then every command is as `G` says and the result as `φ`. -/
def Obeys (R : (e : E) → A e → Prop) (G : E → Prop) (φ : α → Prop) : Prog E A α → Prop
  | ret a => φ a
  | ask e k => G e ∧ ∀ answer, R e answer → Obeys R G φ (k answer)

section Contracts

variable {R : (e : E) → A e → Prop} {G : E → Prop} {φ φ' : α → Prop} {ψ : β → Prop}

theorem Obeys.perform {e : E} (he : G e) : Obeys R G (R e) (perform e) := ⟨he,fun _ h => h⟩

theorem Obeys.bind {p : Prog E A α} {f : α → Prog E A β} (hp : Obeys R G φ p)
    (hf : ∀ a, φ a → Obeys R G ψ (f a)) : Obeys R G ψ (p >>= f) := by
  induction p with
  | ret a => exact hf a hp
  | ask e k ih => exact ⟨hp.1,fun answer h => ih answer (hp.2 answer h)⟩

theorem Obeys.mono {p : Prog E A α} (hp : Obeys R G φ p) (hφ : ∀ a, φ a → φ' a) :
    Obeys R G φ' p := by
  induction p with
  | ret a => exact hφ a hp
  | ask e k ih => exact ⟨hp.1,fun answer h => ih answer (hp.2 answer h)⟩

/-- What holds of every result needs no contract. -/
theorem Obeys.results {p : Prog E A α} (hp : Obeys R G φ p) (h : Results φ' p) :
    Obeys R G (fun a => φ a ∧ φ' a) p := by
  induction p with
  | ret a => exact ⟨hp,h⟩
  | ask e k ih => exact ⟨hp.1,fun answer hr => ih answer (hp.2 answer hr) (h answer)⟩

/-- Commands that may always be asked. -/
theorem Only.obeys {S : E → Prop} {p : Prog E A α} (hp : Only S p) (hS : ∀ e, S e → G e) :
    Obeys R G (fun _ => True) p := by
  induction p with
  | ret a => trivial
  | ask e k ih => exact ⟨hS e hp.1,fun answer _ => ih answer (hp.2 answer)⟩

/-- Like `Obeys`, for programs that may end in an error, of which nothing is said. -/
def TryObeys (R : (e : E) → A e → Prop) (G : E → Prop) (φ : α → Prop)
    (p : ExceptT ε (Prog E A) α) : Prop :=
  Obeys R G (fun result => ∀ a, result = .ok a → φ a) p.run

theorem TryObeys.pure {a : α} (h : φ a) : TryObeys R G φ (pure a : ExceptT ε (Prog E A) α) := by
  rintro b ⟨⟩
  exact h

theorem TryObeys.throw {e : ε} : TryObeys R G φ (throw e : ExceptT ε (Prog E A) α) :=
  fun _ h => nomatch h

theorem TryObeys.bind {p : ExceptT ε (Prog E A) α} {f : α → ExceptT ε (Prog E A) β}
    (hp : TryObeys R G φ p) (hf : ∀ a, φ a → TryObeys R G ψ (f a)) :
    TryObeys R G ψ (p >>= f) := by
  refine Obeys.bind hp fun result h => ?_
  cases result with
  | ok a => exact hf a (h a rfl)
  | error e => exact fun b hb => nomatch hb

theorem TryObeys.mono {p : ExceptT ε (Prog E A) α} (hp : TryObeys R G φ p)
    (hφ : ∀ a, φ a → φ' a) : TryObeys R G φ' p :=
  Obeys.mono hp fun _ h a ha => hφ a (h a ha)

theorem TryObeys.lift {p : Prog E A α} (hp : Obeys R G φ p) :
    TryObeys R G φ (liftM p : ExceptT ε (Prog E A) α) := by
  refine Obeys.bind hp fun a h => ?_
  rintro b ⟨⟩
  exact h

/-- A command of a program that may end in an error. -/
theorem TryObeys.perform {e : E} (he : G e) :
    TryObeys R G (R e) (liftM (Prog.perform e) : ExceptT ε (Prog E A) (A e)) :=
  TryObeys.lift (Obeys.perform he)

/-- An error that is caught is a result. -/
theorem TryObeys.catch {ε' : Type} {p : ExceptT ε' (Prog E A) α} (hp : TryObeys R G φ p) :
    TryObeys R G (fun result => ∀ a, result = .ok a → φ a)
      (liftM p.run : ExceptT ε (Prog E A) (Except ε' α)) :=
  TryObeys.lift hp

theorem TryObeys.results {p : ExceptT ε (Prog E A) α} (hp : TryObeys R G φ p)
    (h : TryResults φ' p) : TryObeys R G (fun a => φ a ∧ φ' a) p :=
  Obeys.mono (Obeys.results hp h) fun _ h a ha => ⟨h.1 a ha,h.2 a ha⟩

theorem sequential_obeys :
    Sequential fun ⦃α⦄ (p : ExceptT ε (Prog E A) α) => TryObeys R G (fun _ => True) p where
  pure _ := TryObeys.pure trivial
  bind hp hf := TryObeys.bind hp fun a _ => hf a
  throw _ := TryObeys.throw

end Contracts

section Worlds

variable {W : Type*} [Preorder W] {step : σ → (e : E) → A e → σ → Prop} {env : σ → σ → Prop}
  {known : σ → W} {R : W → (e : E) → A e → Prop} {G : W → E → Prop} {I : σ → Prop}

/-- A world that keeps its side of a contract: what is known grows, and by what is known then every
answer can be relied on. -/
structure Honest (step : σ → (e : E) → A e → σ → Prop) (env : σ → σ → Prop) (known : σ → W)
    (R : W → (e : E) → A e → Prop) (G : W → E → Prop) (I : σ → Prop) : Prop where
  grows : ∀ w w' e answer, w ≤ w' → R w e answer → R w' e answer
  drift : ∀ s s', I s → env s s' → I s' ∧ known s ≤ known s'
  answer : ∀ s e answer s', I s → G (known s) e → step s e answer s' →
    I s' ∧ known s ≤ known s' ∧ R (known s') e answer

theorem Honest.drifts (h : Honest step env known R G I) {s s' : σ} (hs : I s)
    (hdrift : Relation.ReflTransGen env s s') : I s' ∧ known s ≤ known s' := by
  induction hdrift with
  | refl => exact ⟨hs,le_rfl⟩
  | tail _ hstep ih =>
    have hnext := h.drift _ _ ih.1 hstep
    exact ⟨hnext.1,le_trans ih.2 hnext.2⟩

/-- Every run of a program that obeys the contract keeps the invariant, up to where it is cut
off. -/
theorem Honest.exec (h : Honest step env known R G I) {φ : W → α → Prop} {p : Prog E A α}
    {s s' : σ} {o : Option α} (hp : ∀ w, known s ≤ w → Obeys (R w) (G w) (φ w) p) (hs : I s)
    (hrun : Exec step env p s o s') : I s' ∧ known s ≤ known s' := by
  induction hrun with
  | ret a s => exact ⟨hs,le_rfl⟩
  | cut hdrift => exact h.drifts hs hdrift
  | ask hdrift hstep _ ih =>
    obtain ⟨hs₁,hle₁⟩ := h.drifts hs hdrift
    obtain ⟨hs₂,hle₂,hanswer⟩ := h.answer _ _ _ _ hs₁ (hp _ hle₁).1 hstep
    have hle := le_trans hle₁ hle₂
    obtain ⟨hs',hle'⟩ := ih
      (fun w hw => (hp w (le_trans hle hw)).2 _ (h.grows _ _ _ _ hw hanswer)) hs₂
    exact ⟨hs',le_trans hle hle'⟩

end Worlds

end Prog
