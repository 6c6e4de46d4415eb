import Mathlib.Logic.Relation
import Mathlib.Tactic.Common

/-! Programs that ask commands of a world, run next to an environment that changes the world on
its own, and may be cut off before any command. Triples give a run's result and, apart from it,
what holds wherever the run is cut off. -/
universe u

/-- A program over commands `E` with answers `A`. -/
inductive Prog (E : Type u) (A : E → Type) (α : Type) : Type u
  | ret (a : α)
  | ask (e : E) (k : A e → Prog E A α)

namespace Prog

variable {E : Type u} {A : E → Type} {α β ε σ : Type}

def bind : Prog E A α → (α → Prog E A β) → Prog E A β
  | ret a, f => f a
  | ask e k, f => ask e fun answer => bind (k answer) f

instance : Monad (Prog E A) where
  pure := ret
  bind := bind

@[simp] theorem pure_eq (a : α) : (pure a : Prog E A α) = ret a := rfl

@[simp] theorem ret_bind (a : α) (f : α → Prog E A β) : (ret a >>= f) = f a := rfl

@[simp] theorem ask_bind (e : E) (k : A e → Prog E A α) (f : α → Prog E A β) :
    (ask e k >>= f) = ask e fun answer => k answer >>= f := rfl

/-- The program that asks one command. -/
def perform (e : E) : Prog E A (A e) := ask e ret

section Runs

variable (step : σ → (e : E) → A e → σ → Prop) (env : σ → σ → Prop)

/-- `Exec p s o s'`: a run of `p` from `s` ends in `s'` with a result, or is cut off there. -/
inductive Exec : Prog E A α → σ → Option α → σ → Prop
  | ret (a : α) (s : σ) : Exec (.ret a) s (some a) s
  | cut {e : E} {k : A e → Prog E A α} {s s' : σ} : Relation.ReflTransGen env s s' →
      Exec (.ask e k) s none s'
  | ask {e : E} {k : A e → Prog E A α} {s s₁ s₂ s' : σ} {answer : A e} {o : Option α} :
      Relation.ReflTransGen env s s₁ → step s₁ e answer s₂ → Exec (k answer) s₂ o s' →
        Exec (.ask e k) s o s'

/-- What the environment cannot break. -/
def Stable (P : σ → Prop) : Prop := ∀ s s', P s → env s s' → P s'

/-- From `P`, a finished run of `p` ends in `Q`, one that is cut off in `C`. -/
def Triple (P : σ → Prop) (p : Prog E A α) (Q : α → σ → Prop) (C : σ → Prop) : Prop :=
  ∀ s o s', P s → Exec step env p s o s' → match o with
    | some a => Q a s'
    | none => C s'

/-- Every command the program may ask satisfies `S`. -/
def Only (S : E → Prop) : Prog E A α → Prop
  | ret _ => True
  | ask e k => S e ∧ ∀ answer, Only S (k answer)

/-- Every result the program may return satisfies `φ`. -/
def Results (φ : α → Prop) : Prog E A α → Prop
  | ret a => φ a
  | ask _ k => ∀ answer, Results φ (k answer)

/-- The run in a world that answers in one way. -/
def runWith (answer : σ → (e : E) → A e × σ) : Prog E A α → σ → α × σ
  | ret a, s => (a,s)
  | ask e k, s => runWith answer (k (answer s e).1) (answer s e).2

variable {step env}

/-- A world that always has an allowed answer runs every program to its end. -/
theorem exec_runWith {answer : σ → (e : E) → A e × σ} {J : σ → Prop}
    (h : ∀ s e, J s → (∃ s₁, Relation.ReflTransGen env s s₁ ∧
      step s₁ e (answer s e).1 (answer s e).2) ∧ J (answer s e).2)
    (p : Prog E A α) (s : σ) (hs : J s) :
    Exec step env p s (some (runWith answer p s).1) (runWith answer p s).2 := by
  induction p generalizing s with
  | ret a => exact Exec.ret a s
  | ask e k ih =>
    obtain ⟨⟨s₁,henv,hstep⟩,hnext⟩ := h s e hs
    exact Exec.ask henv hstep (ih _ _ hnext)

/-- The run in such a world, cut off after so many commands. -/
def runFor (answer : σ → (e : E) → A e × σ) : Nat → Prog E A α → σ → Option α × σ
  | _, ret a, s => (some a,s)
  | 0, ask _ _, s => (none,s)
  | n+1, ask e k, s => runFor answer n (k (answer s e).1) (answer s e).2

theorem exec_runFor {answer : σ → (e : E) → A e × σ}
    (h : ∀ s e, ∃ s₁, Relation.ReflTransGen env s s₁ ∧ step s₁ e (answer s e).1 (answer s e).2)
    (n : Nat) (p : Prog E A α) (s : σ) :
    Exec step env p s (runFor answer n p s).1 (runFor answer n p s).2 := by
  induction p generalizing n s with
  | ret a => cases n <;> exact Exec.ret a s
  | ask e k ih =>
    cases n with
    | zero => exact Exec.cut .refl
    | succ n =>
      obtain ⟨s₁,henv,hstep⟩ := h s e
      exact Exec.ask henv hstep (ih _ _ _)

/-- The run in such a world, given up at the first step that fails a check. -/
def runChecked (answer : σ → (e : E) → A e × σ) (check : σ → (e : E) → A e → Bool) :
    Prog E A α → σ → Option (α × σ)
  | ret a, s => some (a,s)
  | ask e k, s =>
    if check s e (answer s e).1 then runChecked answer check (k (answer s e).1) (answer s e).2
    else none

theorem exec_runChecked {answer : σ → (e : E) → A e × σ} {check : σ → (e : E) → A e → Bool}
    (h : ∀ s e, check s e (answer s e).1 = true → ∃ s₁, Relation.ReflTransGen env s s₁ ∧
      step s₁ e (answer s e).1 (answer s e).2)
    {p : Prog E A α} {s s' : σ} {a : α} (hrun : runChecked answer check p s = some (a,s')) :
    Exec step env p s (some a) s' := by
  induction p generalizing s with
  | ret b =>
    cases hrun
    exact Exec.ret _ _
  | ask e k ih =>
    rw [runChecked] at hrun
    split at hrun
    · rename_i hc
      obtain ⟨s₁,henv,hstep⟩ := h s e hc
      exact Exec.ask henv hstep (ih _ hrun)
    · cases hrun

/-- A run whose steps are allowed is one where more is. -/
theorem Exec.mono {step' : σ → (e : E) → A e → σ → Prop}
    (h : ∀ s e answer s', step s e answer s' → step' s e answer s') {p : Prog E A α} {s s' : σ}
    {o : Option α} (hrun : Exec step env p s o s') : Exec step' env p s o s' := by
  induction hrun with
  | ret a s => exact .ret a s
  | cut henv => exact .cut henv
  | ask henv hstep _ ih => exact .ask henv (h _ _ _ _ hstep) ih

theorem exec_bind {p : Prog E A α} {f : α → Prog E A β} {s s' : σ} {o : Option β}
    (h : Exec step env (p >>= f) s o s') :
    (∃ a s₁, Exec step env p s (some a) s₁ ∧ Exec step env (f a) s₁ o s') ∨
      (o = none ∧ Exec step env p s none s') := by
  induction p generalizing s with
  | ret a => exact Or.inl ⟨a,s,Exec.ret a s,h⟩
  | ask e k ih =>
    cases h with
    | cut henv => exact Or.inr ⟨rfl,Exec.cut henv⟩
    | ask henv hstep hrest =>
      rcases ih _ hrest with ⟨a,s₁,hk,hf⟩ | ⟨ho,hk⟩
      · exact Or.inl ⟨a,s₁,Exec.ask henv hstep hk,hf⟩
      · exact Or.inr ⟨ho,Exec.ask henv hstep hk⟩

theorem Exec.bind {p : Prog E A α} {f : α → Prog E A β} {s s₁ s' : σ} {a : α} {o : Option β}
    (hp : Exec step env p s (some a) s₁) (hf : Exec step env (f a) s₁ o s') :
    Exec step env (p >>= f) s o s' := by
  induction p generalizing s with
  | ret b =>
    cases hp
    exact hf
  | ask e k ih =>
    cases hp with
    | ask henv hstep hrest => exact Exec.ask henv hstep (ih _ hrest)

theorem Stable.star {P : σ → Prop} (h : Stable env P) {s s' : σ} (hs : P s)
    (henv : Relation.ReflTransGen env s s') : P s' := by
  induction henv with
  | refl => exact hs
  | tail _ hstep ih => exact h _ _ ih hstep

theorem Stable.and {P Q : σ → Prop} (hp : Stable env P) (hq : Stable env Q) :
    Stable env fun s => P s ∧ Q s :=
  fun s s' h he => ⟨hp s s' h.1 he,hq s s' h.2 he⟩

/-- A part of the world that the environment leaves alone. -/
theorem Stable.of_eq {γ : Type*} {f : σ → γ} (hf : ∀ s s', env s s' → f s' = f s)
    (φ : γ → Prop) : Stable env fun s => φ (f s) :=
  fun s s' h he => (congrArg φ (hf s s' he)).mpr h

variable {P P' : σ → Prop} {Q Q' : α → σ → Prop} {C C' : σ → Prop}

theorem Triple.ret {a : α} (h : ∀ s, P s → Q a s) : Triple step env P (.ret a) Q C := by
  intro s o s' hs hrun
  cases hrun
  exact h s hs

theorem Triple.perform {e : E} {Q : A e → σ → Prop} (hstable : Stable env P)
    (hcut : ∀ s, P s → C s) (hstep : ∀ s answer s', P s → step s e answer s' → Q answer s') :
    Triple step env P (Prog.perform e) Q C := by
  intro s o s' hs hrun
  cases hrun with
  | cut henv => exact hcut s' (hstable.star hs henv)
  | ask henv hask hrest =>
    cases hrest
    exact hstep _ _ _ (hstable.star hs henv) hask

theorem Triple.bind {p : Prog E A α} {f : α → Prog E A β} {R : β → σ → Prop}
    (hp : Triple step env P p Q C) (hf : ∀ a, Triple step env (Q a) (f a) R C) :
    Triple step env P (p >>= f) R C := by
  intro s o s' hs hrun
  rcases exec_bind hrun with ⟨a,s₁,hrun₁,hrun₂⟩ | ⟨rfl,hrun₁⟩
  · exact hf a s₁ o s' (hp s (some a) s₁ hs hrun₁) hrun₂
  · exact hp s none s' hs hrun₁

theorem Triple.weaken {p : Prog E A α} (h : Triple step env P p Q C) (hP : ∀ s, P' s → P s)
    (hQ : ∀ a s, Q a s → Q' a s) (hC : ∀ s, C s → C' s) : Triple step env P' p Q' C' := by
  intro s o s' hs hrun
  have hres := h s o s' (hP s hs) hrun
  cases o with
  | some a => exact hQ a s' hres
  | none => exact hC s' hres

theorem Triple.and {p : Prog E A α} (h : Triple step env P p Q C)
    (h' : Triple step env P' p Q' C') :
    Triple step env (fun s => P s ∧ P' s) p (fun a s => Q a s ∧ Q' a s) fun s => C s ∧ C' s := by
  intro s o s' hs hrun
  have hres := h s o s' hs.1 hrun
  have hres' := h' s o s' hs.2 hrun
  cases o with
  | some a => exact ⟨hres,hres'⟩
  | none => exact ⟨hres,hres'⟩

theorem Triple.pre {p : Prog E A α} (h : Triple step env P p Q C) (hP : ∀ s, P' s → P s) :
    Triple step env P' p Q C :=
  h.weaken hP (fun _ _ h => h) fun _ h => h

theorem Triple.post {p : Prog E A α} (h : Triple step env P p Q C)
    (hQ : ∀ a s, Q a s → Q' a s) : Triple step env P p Q' C :=
  h.weaken (fun _ h => h) hQ fun _ h => h

/-- A fact that does not depend on the world may be used to prove a triple. -/
theorem Triple.of_pure {p : Prog E A α} {φ : Prop} (h : ∀ s, P s → φ)
    (ht : φ → Triple step env P p Q C) : Triple step env P p Q C :=
  fun s o s' hs hrun => ht (h s hs) s o s' hs hrun

theorem Only.bind {S : E → Prop} {p : Prog E A α} {f : α → Prog E A β} (hp : Only S p)
    (hf : ∀ a, Only S (f a)) : Only S (p >>= f) := by
  induction p with
  | ret a => exact hf a
  | ask e k ih => exact ⟨hp.1,fun answer => ih answer (hp.2 answer)⟩

theorem Only.mono {S S' : E → Prop} {p : Prog E A α} (h : Only S p) (hS : ∀ e, S e → S' e) :
    Only S' p := by
  induction p with
  | ret a => trivial
  | ask e k ih => exact ⟨hS e h.1,fun answer => ih answer (h.2 answer)⟩

theorem Results.bind {φ : α → Prop} {ψ : β → Prop} {p : Prog E A α} {f : α → Prog E A β}
    (hp : Results φ p) (hf : ∀ a, φ a → Results ψ (f a)) : Results ψ (p >>= f) := by
  induction p with
  | ret a => exact hf a hp
  | ask e k ih => exact fun answer => ih answer (hp answer)

theorem Results.mono {φ φ' : α → Prop} {p : Prog E A α} (h : Results φ p)
    (hφ : ∀ a, φ a → φ' a) : Results φ' p := by
  induction p with
  | ret a => exact hφ a h
  | ask e k ih => exact fun answer => ih answer (h answer)

theorem results_of_forall {φ : α → Prop} (h : ∀ a, φ a) (p : Prog E A α) : Results φ p := by
  induction p with
  | ret a => exact h a
  | ask e k ih => exact fun answer => ih answer

theorem Results.of_exec {φ : α → Prop} {p : Prog E A α} (hp : Results φ p) {s s' : σ} {a : α}
    (h : Exec step env p s (some a) s') : φ a := by
  induction p generalizing s with
  | ret b =>
    cases h
    exact hp
  | ask e k ih =>
    cases h with
    | ask henv hask hrest => exact ih _ (hp _) hrest

/-- What holds of every result holds after every finished run. -/
theorem Triple.results {φ : α → Prop} {p : Prog E A α} (h : Triple step env P p Q C)
    (hp : Results φ p) : Triple step env P p (fun a s => φ a ∧ Q a s) C := by
  intro s o s' hs hrun
  have hres := h s o s' hs hrun
  cases o with
  | none => exact hres
  | some a => exact ⟨hp.of_exec hrun,hres⟩

/-- An invariant of every command a program may ask is an invariant of its runs. -/
theorem Only.triple {S : E → Prop} {p : Prog E A α} (h : Only S p) (hstable : Stable env P)
    (hcut : ∀ s, P s → C s) (hstep : ∀ e, S e → ∀ s answer s', P s → step s e answer s' → P s') :
    Triple step env P p (fun _ => P) C := by
  intro s o s' hs hrun
  induction p generalizing s with
  | ret a => cases hrun; exact hs
  | ask e k ih =>
    cases hrun with
    | cut henv => exact hcut s' (hstable.star hs henv)
    | ask henv hask hrest =>
      exact ih _ (h.2 _) _ (hstep e h.1 _ _ _ (hstable.star hs henv) hask) hrest

end Runs

/-! Programs that may end in an error. -/
section Errors

/-- What holds after an answer: `Q` of the value, or `D` of the error. -/
def After (Q : α → σ → Prop) (D : ε → σ → Prop) : Except ε α → σ → Prop
  | .ok a => Q a
  | .error error => D error

/-- Like `Triple`, for programs that may end in an error: `D` holds then. -/
def TryTriple (step : σ → (e : E) → A e → σ → Prop) (env : σ → σ → Prop) (P : σ → Prop)
    (p : ExceptT ε (Prog E A) α) (Q : α → σ → Prop) (D C : σ → Prop) : Prop :=
  Triple step env P p.run (fun result s => match result with
    | .ok a => Q a s
    | .error _ => D s) C

variable {step : σ → (e : E) → A e → σ → Prop} {env : σ → σ → Prop}
  {P P' : σ → Prop} {Q Q' : α → σ → Prop} {D D' C C' : σ → Prop}

theorem TryTriple.pure {a : α} (h : ∀ s, P s → Q a s) :
    TryTriple step env P (pure a : ExceptT ε (Prog E A) α) Q D C :=
  Triple.ret h

theorem TryTriple.throw {e : ε} (h : ∀ s, P s → D s) :
    TryTriple step env P (throw e : ExceptT ε (Prog E A) α) Q D C :=
  Triple.ret h

theorem TryTriple.bind {p : ExceptT ε (Prog E A) α} {f : α → ExceptT ε (Prog E A) β}
    {R : β → σ → Prop} (hp : TryTriple step env P p Q D C)
    (hf : ∀ a, TryTriple step env (Q a) (f a) R D C) :
    TryTriple step env P (p >>= f) R D C := by
  refine Triple.bind hp fun result => ?_
  cases result with
  | ok a => exact hf a
  | error e => exact Triple.ret fun _ h => h

/-- After a part that ends in no error, the result of the rest is that of the whole. -/
theorem TryTriple.bind_run {p : ExceptT ε (Prog E A) α} {f : α → ExceptT ε (Prog E A) β}
    {R : Except ε β → σ → Prop} (hp : TryTriple step env P p Q (fun _ => False) C)
    (hf : ∀ a, Triple step env (Q a) (f a).run R C) : Triple step env P (p >>= f).run R C := by
  refine Triple.bind hp fun result => ?_
  cases result with
  | ok a => exact hf a
  | error e => exact Triple.ret fun _ h => h.elim

theorem TryTriple.lift {p : Prog E A α} (h : Triple step env P p Q C) :
    TryTriple step env P (liftM p : ExceptT ε (Prog E A) α) Q D C := by
  refine Triple.bind h fun a => ?_
  exact Triple.ret fun _ h => h

/-- An error that is caught is a result. -/
theorem TryTriple.catch {ε' : Type} {p : ExceptT ε' (Prog E A) α}
    (h : TryTriple step env P p Q D C) :
    TryTriple step env P (liftM p.run : ExceptT ε (Prog E A) (Except ε' α))
      (fun result s => match result with
        | .ok a => Q a s
        | .error _ => D s) D' C :=
  TryTriple.lift h

theorem TryTriple.weaken {p : ExceptT ε (Prog E A) α} (h : TryTriple step env P p Q D C)
    (hP : ∀ s, P' s → P s) (hQ : ∀ a s, Q a s → Q' a s) (hD : ∀ s, D s → D' s)
    (hC : ∀ s, C s → C' s) : TryTriple step env P' p Q' D' C' := by
  refine Triple.weaken h hP (fun result s hres => ?_) hC
  cases result with
  | ok a => exact hQ a s hres
  | error e => exact hD s hres

theorem TryTriple.and {p : ExceptT ε (Prog E A) α} (h : TryTriple step env P p Q D C)
    (h' : TryTriple step env P' p Q' D' C') :
    TryTriple step env (fun s => P s ∧ P' s) p (fun a s => Q a s ∧ Q' a s) (fun s => D s ∧ D' s)
      fun s => C s ∧ C' s :=
  (Triple.and h h').post fun result s hs => by
    cases result with
    | ok a => exact hs
    | error e => exact hs

theorem TryTriple.pre {p : ExceptT ε (Prog E A) α} (h : TryTriple step env P p Q D C)
    (hP : ∀ s, P' s → P s) : TryTriple step env P' p Q D C :=
  h.weaken hP (fun _ _ h => h) (fun _ h => h) fun _ h => h

theorem TryTriple.post {p : ExceptT ε (Prog E A) α} (h : TryTriple step env P p Q D C)
    (hQ : ∀ a s, Q a s → Q' a s) : TryTriple step env P p Q' D C :=
  h.weaken (fun _ h => h) hQ (fun _ h => h) fun _ h => h

theorem TryTriple.of_pure {p : ExceptT ε (Prog E A) α} {φ : Prop} (h : ∀ s, P s → φ)
    (ht : φ → TryTriple step env P p Q D C) : TryTriple step env P p Q D C :=
  Triple.of_pure h ht

theorem TryTriple.exists_pre {ι : Sort*} {P : ι → σ → Prop} {p : ExceptT ε (Prog E A) α}
    (h : ∀ i, TryTriple step env (P i) p Q D C) :
    TryTriple step env (fun s => ∃ i, P i s) p Q D C :=
  fun s o s' ⟨i,hs⟩ hrun => h i s o s' hs hrun

/-- A command of a program that may end in an error. -/
theorem TryTriple.perform {e : E} {Q : A e → σ → Prop} (hstable : Stable env P)
    (hcut : ∀ s, P s → C s) (hstep : ∀ s answer s', P s → step s e answer s' → Q answer s') :
    TryTriple step env P (liftM (Prog.perform e) : ExceptT ε (Prog E A) (A e)) Q D C :=
  TryTriple.lift (Triple.perform hstable hcut hstep)

/-- Every result that is no error satisfies `φ`. -/
def TryResults (φ : α → Prop) (p : ExceptT ε (Prog E A) α) : Prop :=
  Results (fun result => ∀ a, result = .ok a → φ a) p.run

theorem TryResults.pure {φ : α → Prop} {a : α} (h : φ a) :
    TryResults φ (pure a : ExceptT ε (Prog E A) α) := by
  rintro b ⟨⟩
  exact h

theorem TryResults.mono {φ φ' : α → Prop} {p : ExceptT ε (Prog E A) α} (h : TryResults φ p)
    (hφ : ∀ a, φ a → φ' a) : TryResults φ' p :=
  Results.mono h fun _ hresult a ha => hφ a (hresult a ha)

theorem tryResults_true (p : ExceptT ε (Prog E A) α) : TryResults (fun _ => True) p :=
  results_of_forall (fun _ _ _ => trivial) p.run

theorem TryResults.bind {φ : α → Prop} {ψ : β → Prop} {p : ExceptT ε (Prog E A) α}
    {f : α → ExceptT ε (Prog E A) β} (hp : TryResults φ p)
    (hf : ∀ a, φ a → TryResults ψ (f a)) : TryResults ψ (p >>= f) := by
  refine Results.bind hp fun result hresult => ?_
  cases result with
  | ok a => exact hf a (hresult a rfl)
  | error e => exact fun b hb => nomatch hb

theorem TryTriple.results {φ : α → Prop} {p : ExceptT ε (Prog E A) α}
    (h : TryTriple step env P p Q D C) (hp : TryResults φ p) :
    TryTriple step env P p (fun a s => φ a ∧ Q a s) D C :=
  (Triple.results h hp).post fun result s hs => by
    cases result with
    | ok a => exact ⟨hs.1 a rfl,hs.2⟩
    | error e => exact hs.2

/-- Every run of `p` keeps `I`, up to where it is cut off; `C` holds there and at an error. -/
def Keeps (step : σ → (e : E) → A e → σ → Prop) (env : σ → σ → Prop) (C I : σ → Prop)
    (p : ExceptT ε (Prog E A) α) : Prop :=
  TryTriple step env I p (fun _ => I) C C

theorem Keeps.catch {ε' : Type} {I : σ → Prop} {p : ExceptT ε' (Prog E A) α}
    (h : Keeps step env I I p) (hcut : ∀ s, I s → C s) :
    Keeps step env C I (liftM p.run : ExceptT ε (Prog E A) (Except ε' α)) := by
  refine TryTriple.lift (Triple.weaken h (fun _ h => h) (fun result s hs => ?_) hcut)
  cases result with
  | ok a => exact hs
  | error e => exact hs

theorem Keeps.perform {I : σ → Prop} {e : E} (hstable : Stable env I) (hcut : ∀ s, I s → C s)
    (hstep : ∀ s answer s', I s → step s e answer s' → I s') :
    Keeps step env C I (liftM (Prog.perform e) : ExceptT ε (Prog E A) (A e)) :=
  TryTriple.perform hstable hcut hstep

/-- A property of programs that results have and that sequencing keeps. -/
structure Composable (K : ⦃α : Type⦄ → ExceptT ε (Prog E A) α → Prop) : Prop where
  pure : ∀ {α : Type} (a : α), K (Pure.pure a)
  bind : ∀ {α β : Type} {p : ExceptT ε (Prog E A) α} {f : α → ExceptT ε (Prog E A) β},
    K p → (∀ a, K (f a)) → K (p >>= f)

/-- Errors have the property as well. -/
structure Sequential (K : ⦃α : Type⦄ → ExceptT ε (Prog E A) α → Prop) : Prop
    extends Composable K where
  throw : ∀ {α : Type} (e : ε), K (throw e : ExceptT ε (Prog E A) α)

theorem sequential_try {C D I : σ → Prop} (herror : ∀ s, I s → D s) :
    Sequential fun ⦃α⦄ (p : ExceptT ε (Prog E A) α) =>
      TryTriple step env I p (fun _ => I) D C where
  pure _ := TryTriple.pure fun _ h => h
  bind hp hf := TryTriple.bind hp hf
  throw _ := TryTriple.throw herror

theorem sequential_keeps {C I : σ → Prop} (hcut : ∀ s, I s → C s) :
    Sequential fun ⦃α⦄ (p : ExceptT ε (Prog E A) α) => Keeps step env C I p :=
  sequential_try hcut

theorem sequential_only {S : E → Prop} :
    Sequential fun ⦃α⦄ (p : ExceptT ε (Prog E A) α) => Only S p.run where
  pure _ := trivial
  bind hp hf := Only.bind hp fun result => by
    cases result with
    | ok a => exact hf a
    | error e => trivial
  throw _ := trivial

theorem Only.lift {S : E → Prop} {p : Prog E A α} (h : Only S p) :
    Only S (liftM p : ExceptT ε (Prog E A) α).run :=
  Only.bind h fun _ => trivial

/-- An invariant of every command a program may ask holds after its errors as well. -/
theorem Only.keeps {S : E → Prop} {p : ExceptT ε (Prog E A) α} (h : Only S p.run)
    (hstable : Stable env P) (hcut : ∀ s, P s → C s)
    (hstep : ∀ e, S e → ∀ s answer s', P s → step s e answer s' → P s') :
    TryTriple step env P p (fun _ => P) P C :=
  (Only.triple h hstable hcut hstep).post fun result s hs => by
    cases result with
    | ok a => exact hs
    | error e => exact hs

/-- Every run of `p` that is not cut off keeps `I`; `D` holds if it ends in an error. -/
def Upholds (step : σ → (e : E) → A e → σ → Prop) (env : σ → σ → Prop) (I D : σ → Prop)
    (p : ExceptT ε (Prog E A) α) : Prop :=
  TryTriple step env I p (fun _ => I) D fun _ => True

theorem sequential_upholds {I D : σ → Prop} (herror : ∀ s, I s → D s) :
    Sequential fun ⦃α⦄ (p : ExceptT ε (Prog E A) α) => Upholds step env I D p :=
  sequential_try herror

theorem Upholds.catch {ε' : Type} {I D : σ → Prop} {p : ExceptT ε' (Prog E A) α}
    (h : Upholds step env I D p) (herror : ∀ s, I s → D s) :
    TryTriple step env I (liftM p.run : ExceptT ε (Prog E A) (Except ε' α)) (fun _ => D) D'
      fun _ => True := by
  refine TryTriple.lift (Triple.weaken h (fun _ h => h) (fun result s hs => ?_) fun _ h => h)
  cases result with
  | ok a => exact herror s hs
  | error e => exact hs

theorem Upholds.perform {I D : σ → Prop} {e : E} (hstable : Stable env I)
    (hstep : ∀ s answer s', I s → step s e answer s' → I s') :
    Upholds step env I D (liftM (Prog.perform e) : ExceptT ε (Prog E A) (A e)) :=
  TryTriple.perform hstable (fun _ _ => trivial) hstep

/-- Every run of `p` keeps `I` and ends in no error; where it is cut off `C` holds. -/
def KeepsOk (step : σ → (e : E) → A e → σ → Prop) (env : σ → σ → Prop) (C I : σ → Prop)
    (p : ExceptT ε (Prog E A) α) : Prop :=
  TryTriple step env I p (fun _ => I) (fun _ => False) C

theorem composable_keepsOk {C I : σ → Prop} :
    Composable fun ⦃α⦄ (p : ExceptT ε (Prog E A) α) => KeepsOk step env C I p where
  pure _ := TryTriple.pure fun _ h => h
  bind hp hf := TryTriple.bind hp hf

end Errors

/-- An entry of a history with one more at its end is that one, or stands before it. -/
theorem snoc_eq_append_cons {α : Type*} {before before' after : List α} {last x : α}
    (h : before ++ [last] = before' ++ x :: after) :
    (before' = before ∧ x = last ∧ after = []) ∨
      ∃ rest, after = rest ++ [last] ∧ before = before' ++ x :: rest := by
  rcases List.eq_nil_or_concat after with rfl | ⟨rest,y,rfl⟩
  · obtain ⟨hbefore,hlast⟩ := List.append_inj' h rfl
    exact Or.inl ⟨hbefore.symm,(List.singleton_inj.mp hlast).symm,rfl⟩
  · rw [List.concat_eq_append,← List.cons_append,← List.append_assoc] at h
    obtain ⟨hbefore,hlast⟩ := List.append_inj' h rfl
    exact Or.inr ⟨rest,by rw [List.concat_eq_append,hlast],hbefore⟩

end Prog
