import YaDiskSync.Prog

/-! Commands at the moment they are asked. A triple says what a run leaves behind; `Heeds` says in
addition what holds of the world whenever one of its commands is asked. -/
namespace Prog

universe u

variable {E : Type u} {A : E → Type} {α β ε σ : Type}

section Asked

variable (step : σ → (e : E) → A e → σ → Prop) (env : σ → σ → Prop)

/-- `Asks p s e s'`: a run of `p` from `s` comes to ask `e` in `s'`. -/
inductive Asks : Prog E A α → σ → E → σ → Prop
  | now {e : E} {k : A e → Prog E A α} {s s' : σ} : Relation.ReflTransGen env s s' →
      Asks (.ask e k) s e s'
  | later {e e' : E} {k : A e → Prog E A α} {s s₁ s₂ s' : σ} {answer : A e} :
      Relation.ReflTransGen env s s₁ → step s₁ e answer s₂ → Asks (k answer) s₂ e' s' →
        Asks (.ask e k) s e' s'

variable {step env}

theorem asks_bind {p : Prog E A α} {f : α → Prog E A β} {s s' : σ} {e : E}
    (h : Asks step env (p >>= f) s e s') : Asks step env p s e s' ∨
      ∃ a s₁, Exec step env p s (some a) s₁ ∧ Asks step env (f a) s₁ e s' := by
  induction p generalizing s with
  | ret a => exact Or.inr ⟨a,s,.ret a s,h⟩
  | ask e' k ih =>
    cases h with
    | now henv => exact Or.inl (.now henv)
    | later henv hstep hrest =>
      rcases ih _ hrest with hk | ⟨a,s₁,hk,hf⟩
      · exact Or.inl (.later henv hstep hk)
      · exact Or.inr ⟨a,s₁,.ask henv hstep hk,hf⟩

end Asked

/-- From `P` to `Q`, or to `D` by an error, or to `C` where it is cut off; and whatever is asked,
is asked where `φ` lets it be. -/
structure Heeds (step : σ → (e : E) → A e → σ → Prop) (env : σ → σ → Prop) (φ : E → σ → Prop)
    (P : σ → Prop) (p : ExceptT ε (Prog E A) α) (Q : α → σ → Prop) (D C : σ → Prop) : Prop where
  triple : TryTriple step env P p Q D C
  asked : ∀ s e s', P s → Asks step env p.run s e s' → φ e s'

namespace Heeds

variable {step : σ → (e : E) → A e → σ → Prop} {env : σ → σ → Prop} {φ : E → σ → Prop}
  {P P' : σ → Prop} {Q Q' : α → σ → Prop} {D D' C C' : σ → Prop}

theorem pure {a : α} (h : ∀ s, P s → Q a s) :
    Heeds step env φ P (pure a : ExceptT ε (Prog E A) α) Q D C :=
  ⟨TryTriple.pure h,fun _ _ _ _ h => nomatch h⟩

theorem throw {e : ε} (h : ∀ s, P s → D s) :
    Heeds step env φ P (throw e : ExceptT ε (Prog E A) α) Q D C :=
  ⟨TryTriple.throw h,fun _ _ _ _ h => nomatch h⟩

theorem bind {p : ExceptT ε (Prog E A) α} {f : α → ExceptT ε (Prog E A) β} {R : β → σ → Prop}
    (hp : Heeds step env φ P p Q D C) (hf : ∀ a, Heeds step env φ (Q a) (f a) R D C) :
    Heeds step env φ P (p >>= f) R D C := by
  refine ⟨TryTriple.bind hp.triple fun a => (hf a).triple,fun s e s' hs hasks => ?_⟩
  rcases asks_bind hasks with hasked | ⟨result,s₁,hrun,hasked⟩
  · exact hp.asked s e s' hs hasked
  · have hres := hp.triple s (some result) s₁ hs hrun
    cases result with
    | ok a => exact (hf a).asked s₁ e s' hres hasked
    | error error => cases hasked

theorem weaken {p : ExceptT ε (Prog E A) α} (h : Heeds step env φ P p Q D C)
    (hP : ∀ s, P' s → P s) (hQ : ∀ a s, Q a s → Q' a s) (hD : ∀ s, D s → D' s)
    (hC : ∀ s, C s → C' s) : Heeds step env φ P' p Q' D' C' :=
  ⟨h.triple.weaken hP hQ hD hC,fun s e s' hs => h.asked s e s' (hP s hs)⟩

theorem pre {p : ExceptT ε (Prog E A) α} (h : Heeds step env φ P p Q D C) (hP : ∀ s, P' s → P s) :
    Heeds step env φ P' p Q D C :=
  h.weaken hP (fun _ _ h => h) (fun _ h => h) fun _ h => h

theorem post {p : ExceptT ε (Prog E A) α} (h : Heeds step env φ P p Q D C)
    (hQ : ∀ a s, Q a s → Q' a s) : Heeds step env φ P p Q' D C :=
  h.weaken (fun _ h => h) hQ (fun _ h => h) fun _ h => h

/-- More may be known of what a run leaves behind. -/
theorem and {p : ExceptT ε (Prog E A) α} (h : Heeds step env φ P p Q D C)
    (h' : TryTriple step env P' p Q' D' C') :
    Heeds step env φ (fun s => P s ∧ P' s) p (fun a s => Q a s ∧ Q' a s) (fun s => D s ∧ D' s)
      fun s => C s ∧ C' s :=
  ⟨h.triple.and h',fun s e s' hs => h.asked s e s' hs.1⟩

theorem of_pure {p : ExceptT ε (Prog E A) α} {ψ : Prop} (h : ∀ s, P s → ψ)
    (hp : ψ → Heeds step env φ P p Q D C) : Heeds step env φ P p Q D C :=
  ⟨fun s o s' hs hrun => (hp (h s hs)).triple s o s' hs hrun,
    fun s e s' hs hasks => (hp (h s hs)).asked s e s' hs hasks⟩

theorem exists_pre {ι : Sort*} {P : ι → σ → Prop} {p : ExceptT ε (Prog E A) α}
    (h : ∀ i, Heeds step env φ (P i) p Q D C) : Heeds step env φ (fun s => ∃ i, P i s) p Q D C :=
  ⟨TryTriple.exists_pre fun i => (h i).triple,
    fun s e s' hs hasks => by
      obtain ⟨i,hi⟩ := hs
      exact (h i).asked s e s' hi hasks⟩

theorem perform {e : E} {Q : A e → σ → Prop} (hstable : Stable env P) (hcut : ∀ s, P s → C s)
    (hφ : ∀ s, P s → φ e s) (hstep : ∀ s answer s', P s → step s e answer s' → Q answer s') :
    Heeds step env φ P (liftM (Prog.perform e) : ExceptT ε (Prog E A) (A e)) Q D C := by
  refine ⟨TryTriple.perform hstable hcut hstep,fun s e' s' hs hasks => ?_⟩
  cases hasks with
  | now henv => exact hφ _ (hstable.star hs henv)
  | later henv hask hrest => cases hrest

/-- Commands that may always be asked and keep an invariant. -/
theorem only {S : E → Prop} {p : Prog E A α} (h : Only S p) (hstable : Stable env P)
    (hcut : ∀ s, P s → C s) (hφ : ∀ e, S e → ∀ s, P s → φ e s)
    (hstep : ∀ e, S e → ∀ s answer s', P s → step s e answer s' → P s') :
    Heeds step env φ P (liftM p : ExceptT ε (Prog E A) α) (fun _ => P) D C := by
  refine ⟨TryTriple.lift (h.triple hstable hcut hstep),fun s e s' hs hasks => ?_⟩
  have hlift : Asks step env (p >>= fun a => (Pure.pure (Except.ok a) : Prog E A (Except ε α))) s e
    s' := hasks
  clear hasks
  induction p generalizing s with
  | ret a => cases hlift
  | ask e' k ih =>
    cases hlift with
    | now henv => exact hφ e h.1 _ (hstable.star hs henv)
    | later henv hask hrest =>
      exact ih _ (h.2 _) _ (hstep e' h.1 _ _ _ (hstable.star hs henv) hask) hrest

/-- An error that is caught is a result. -/
theorem caught {ε' : Type} {p : ExceptT ε' (Prog E A) α} (h : Heeds step env φ P p Q D C) :
    Heeds step env φ P (liftM p.run : ExceptT ε (Prog E A) (Except ε' α))
      (fun result s => match result with
        | .ok a => Q a s
        | .error _ => D s) D' C := by
  refine ⟨h.triple.catch,fun s e s' hs hasks => ?_⟩
  rcases asks_bind hasks with hasked | ⟨result,s₁,_,hasked⟩
  · exact h.asked s e s' hs hasked
  · cases hasked

theorem sequential {I : σ → Prop} (herror : ∀ s, I s → D s) :
    Sequential fun ⦃α⦄ (p : ExceptT ε (Prog E A) α) =>
      Heeds step env φ I p (fun _ => I) D C where
  pure _ := Heeds.pure fun _ h => h
  bind hp hf := Heeds.bind hp hf
  throw _ := Heeds.throw herror

end Heeds

end Prog
