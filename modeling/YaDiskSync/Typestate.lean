import YaDiskSync.Prog

/-! Programs that keep to a protocol. A protocol has phases; a phase says which commands may be
asked, and the answer to a command leads to the next phase. No world is spoken of: a program keeps
to its protocol whatever it is answered. -/
namespace Prog

universe u

variable {E : Type u} {A : E → Type} {α β ε : Type} {Φ : Type}

structure Protocol (E : Type u) (A : E → Type) (Φ : Type) where
  allows : Φ → E → Prop
  next : Φ → (e : E) → A e → Φ

/-- From a phase on every command is allowed where it is asked, and `Q` holds of the result and
the last phase. -/
def Follows (protocol : Protocol E A Φ) (Q : α → Φ → Prop) : Prog E A α → Φ → Prop
  | ret a, phase => Q a phase
  | ask e k, phase => protocol.allows phase e ∧
      ∀ answer, Follows protocol Q (k answer) (protocol.next phase e answer)

section Rules

variable {protocol : Protocol E A Φ} {Q Q' : α → Φ → Prop} {R : β → Φ → Prop} {phase : Φ}

theorem Follows.perform {e : E} {Q : A e → Φ → Prop} (he : protocol.allows phase e)
    (hQ : ∀ answer, Q answer (protocol.next phase e answer)) :
    Follows protocol Q (perform e) phase :=
  ⟨he,hQ⟩

theorem Follows.asked {e : E} {k : A e → Prog E A α} (h : Follows protocol Q (.ask e k) phase) :
    protocol.allows phase e ∧
      ∀ answer, Follows protocol Q (k answer) (protocol.next phase e answer) :=
  h

theorem Follows.bind {p : Prog E A α} {f : α → Prog E A β} (hp : Follows protocol Q p phase)
    (hf : ∀ a phase, Q a phase → Follows protocol R (f a) phase) :
    Follows protocol R (p >>= f) phase := by
  induction p generalizing phase with
  | ret a => exact hf a phase hp
  | ask e k ih => exact ⟨hp.1,fun answer => ih answer (hp.2 answer)⟩

theorem Follows.mono {p : Prog E A α} (hp : Follows protocol Q p phase)
    (hQ : ∀ a phase, Q a phase → Q' a phase) : Follows protocol Q' p phase := by
  induction p generalizing phase with
  | ret a => exact hQ a phase hp
  | ask e k ih => exact ⟨hp.1,fun answer => ih answer (hp.2 answer)⟩

/-- Commands that a set of phases allows and that do not lead out of it. -/
theorem Only.follows {S : E → Prop} {p : Prog E A α} {φ : Φ → Prop} (hp : Only S p)
    (hallows : ∀ phase e, φ phase → S e → protocol.allows phase e)
    (hnext : ∀ phase e answer, φ phase → S e → φ (protocol.next phase e answer))
    (hphase : φ phase) : Follows protocol (fun _ => φ) p phase := by
  induction p generalizing phase with
  | ret a => exact hphase
  | ask e k ih =>
    refine ⟨hallows phase e hphase hp.1,fun answer => ?_⟩
    exact ih answer (hp.2 answer) (hnext phase e answer hphase hp.1)

/-- Like `Follows`, for programs that may end in an error: `D` holds of the phase then. -/
def TryFollows (protocol : Protocol E A Φ) (Q : α → Φ → Prop) (D : Φ → Prop)
    (p : ExceptT ε (Prog E A) α) : Φ → Prop :=
  Follows protocol (fun result phase => match result with
    | .ok a => Q a phase
    | .error _ => D phase) p.run

variable {D : Φ → Prop}

theorem TryFollows.pure {a : α} (h : Q a phase) :
    TryFollows protocol Q D (pure a : ExceptT ε (Prog E A) α) phase :=
  h

theorem TryFollows.throw {e : ε} (h : D phase) :
    TryFollows protocol Q D (throw e : ExceptT ε (Prog E A) α) phase :=
  h

theorem TryFollows.bind {p : ExceptT ε (Prog E A) α} {f : α → ExceptT ε (Prog E A) β}
    (hp : TryFollows protocol Q D p phase)
    (hf : ∀ a phase, Q a phase → TryFollows protocol R D (f a) phase) :
    TryFollows protocol R D (p >>= f) phase := by
  refine Follows.bind hp fun result phase h => ?_
  cases result with
  | ok a => exact hf a phase h
  | error e => exact h

theorem TryFollows.mono {p : ExceptT ε (Prog E A) α} (hp : TryFollows protocol Q D p phase)
    (hQ : ∀ a phase, Q a phase → Q' a phase) : TryFollows protocol Q' D p phase := by
  refine Follows.mono hp fun result phase h => ?_
  cases result with
  | ok a => exact hQ a phase h
  | error e => exact h

theorem TryFollows.lift {p : Prog E A α} (hp : Follows protocol Q p phase) :
    TryFollows protocol Q D (liftM p : ExceptT ε (Prog E A) α) phase :=
  Follows.bind hp fun _ _ h => h

/-- A command of a program that may end in an error. -/
theorem TryFollows.perform {e : E} {Q : A e → Φ → Prop} (he : protocol.allows phase e)
    (hQ : ∀ answer, Q answer (protocol.next phase e answer)) :
    TryFollows protocol Q D (liftM (Prog.perform e) : ExceptT ε (Prog E A) (A e)) phase :=
  TryFollows.lift (Follows.perform he hQ)

end Rules

end Prog
