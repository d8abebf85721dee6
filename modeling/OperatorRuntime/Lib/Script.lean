/-
Code that changes durable state by single writes, may throw, and may be
cut off after any of its writes. A script answers the states its writes
leave, in order; a crash keeps a first part of them.

`Triple P x Q C` reads: started in a state that meets `P`, every state a
write of `x` leaves meets `C`, and where `x` returns, the value and the
state it ends in meet `Q`. What holds at a crash (`C`) need not be what
holds on return, so the proof of an operation can go through states that
only a crash would expose.
-/
import Mathlib.Data.List.Basic

namespace OperatorRuntime.Lib

universe u v w

-- ===== scripts

/-- The states left by the writes, and what the code answered. -/
structure Trace (σ : Type u) (ε : Type v) (α : Type w) where
  states : List σ
  answer : Except ε α

/-- Code over the durable state it finds. -/
def Script (σ : Type u) (ε : Type v) (α : Type w) : Type (max u v w) :=
  σ → Trace σ ε α

/-- The state in which a row of writes ends. -/
def endOf {σ : Type u} (s : σ) (states : List σ) : σ :=
  states.getLast?.getD s

namespace Script

variable {σ : Type u} {ε : Type v} {α β : Type w}

def bind (x : Script σ ε α) (f : α → Script σ ε β) : Script σ ε β := fun s =>
  match (x s).answer with
  | .error e => { states := (x s).states, answer := .error e }
  | .ok a =>
    let rest := f a (endOf s (x s).states)
    { states := (x s).states ++ rest.states, answer := rest.answer }

instance : Monad (Script σ ε) where
  pure a := fun _ => { states := [], answer := .ok a }
  bind := bind

/-- The state as it stands. -/
def read {σ : Type u} {ε : Type v} : Script σ ε σ := fun s => { states := [], answer := .ok s }

def write {σ : Type u} {ε : Type v} (f : σ → σ) : Script σ ε PUnit := fun s =>
  { states := [f s], answer := .ok ⟨⟩ }

/-- Code that writes nothing. -/
def lift (x : Except ε α) : Script σ ε α := fun _ => { states := [], answer := x }

/-- Code whose throw is caught. -/
def attempt (x : Script σ ε α) : Script σ ε (Except ε α) := fun s =>
  { states := (x s).states, answer := .ok (x s).answer }

theorem endOf_append (s : σ) (l l' : List σ) : endOf s (l ++ l') = endOf (endOf s l) l' := by
  cases hl' : l'.getLast? with
  | none =>
    have hnil := List.getLast?_eq_none_iff.1 hl'
    simp [endOf, hnil]
  | some t => simp [endOf, List.getLast?_append, hl']

instance : LawfulMonad (Script σ ε) := by
  refine LawfulMonad.mk' (m := Script σ ε) ?_ ?_ ?_
  · intro α x
    funext s
    show Script.bind x _ s = x s
    rw [Script.bind]
    generalize x s = trace
    cases trace with
    | mk states answer =>
      cases answer with
      | error e => rfl
      | ok a => exact congrArg (Trace.mk · (Except.ok a)) (List.append_nil states)
  · intro α β a f
    rfl
  · intro α β γ x f g
    funext s
    show Script.bind (Script.bind x f) g s = Script.bind x (fun a => Script.bind (f a) g) s
    simp only [Script.bind]
    cases (x s).answer with
    | error e => rfl
    | ok a =>
      dsimp only
      cases (f a (endOf s (x s).states)).answer with
      | error e => rfl
      | ok b => simp only [endOf_append, List.append_assoc]

variable {f : α → Script σ ε β}

theorem lift_ok_bind {a : α} : ((Script.lift (.ok a) : Script σ ε α) >>= f) = f a := rfl

theorem bind_of_ok {x : Script σ ε α} {s : σ} {states : List σ} {a : α}
    (h : x s = { states, answer := .ok a }) :
    (x >>= f) s = { states := states ++ (f a (endOf s states)).states
                    answer := (f a (endOf s states)).answer } := by
  show Script.bind x f s = _
  rw [Script.bind, h]

/-- The state a crash after at most `n` writes leaves. -/
def upTo (n : Nat) (x : Script σ ε α) (s : σ) : σ :=
  endOf s ((x s).states.take n)

theorem upTo_bind {x : Script σ ε α} {s : σ} {n : Nat} (h : (x s).states.length = n) :
    upTo n (x >>= f) s = endOf s (x s).states := by
  have hbind : ∃ rest, ((x >>= f) s).states = (x s).states ++ rest := by
    show ∃ rest, (Script.bind x f s).states = _
    rw [Script.bind]
    split
    · exact ⟨[], (List.append_nil _).symm⟩
    · exact ⟨_, rfl⟩
  obtain ⟨rest, hrest⟩ := hbind
  rw [upTo, hrest, ← h, List.take_left]

-- ===== triples

/-- Started in `P`, every write leaves `C`, and a return leaves `Q`. -/
def Triple (P : σ → Prop) (x : Script σ ε α) (Q : α → σ → Prop) (C : σ → Prop) : Prop :=
  ∀ s, P s → (∀ t ∈ (x s).states, C t) ∧ ∀ a, (x s).answer = .ok a → Q a (endOf s (x s).states)

section
variable {P P' : σ → Prop} {Q Q' : α → σ → Prop} {R : β → σ → Prop} {C C' : σ → Prop}

variable {x : Script σ ε α}

theorem Triple.weaken (h : Triple P x Q C) (hP : ∀ s, P' s → P s) (hQ : ∀ a s, Q a s → Q' a s)
    (hC : ∀ s, C s → C' s) : Triple P' x Q' C' := by
  intro s hs
  obtain ⟨hcrash, hreturn⟩ := h s (hP s hs)
  exact ⟨fun t ht => hC t (hcrash t ht), fun a ha => hQ a _ (hreturn a ha)⟩

theorem Triple.pure {a : α} (h : ∀ s, P s → Q a s) : Triple P (Pure.pure a : Script σ ε α) Q C := by
  intro s hs
  refine ⟨fun t ht => (nomatch ht), ?_⟩
  intro b hb
  rw [← Except.ok.inj hb]
  exact h s hs

theorem Triple.lift {x : Except ε α} (h : ∀ s a, P s → x = .ok a → Q a s) :
    Triple P (Script.lift x : Script σ ε α) Q C :=
  fun s hs => ⟨fun _ ht => (nomatch ht), fun a ha => h s a hs ha⟩

theorem Triple.read_bind {α : Type u} {R : α → σ → Prop} {s : σ} {f : σ → Script σ ε α}
    (h : Triple (fun t => t = s) (f s) R C) : Triple (fun t => t = s) (Script.read >>= f) R C := by
  intro t ht
  subst ht
  exact h t rfl

theorem Triple.reads {α : Type u} {R : α → σ → Prop} {f : σ → Script σ ε α}
    (h : ∀ s, P s → Triple (fun t => t = s) (f s) R C) : Triple P (Script.read >>= f) R C :=
  fun s hs => h s hs s rfl

theorem Triple.write {Q : PUnit → σ → Prop} {f : σ → σ} (hC : ∀ s, P s → C (f s))
    (hQ : ∀ s, P s → Q ⟨⟩ (f s)) : Triple P (Script.write f : Script σ ε PUnit) Q C := by
  intro s hs
  refine ⟨?_, fun _ _ => hQ s hs⟩
  intro t ht
  rw [List.mem_singleton.1 ht]
  exact hC s hs

theorem Triple.bind (hx : Triple P x Q C) (hf : ∀ a, Triple (Q a) (f a) R C) :
    Triple P (x >>= f) R C := by
  intro s hs
  obtain ⟨hcrash, hreturn⟩ := hx s hs
  show (∀ t ∈ (Script.bind x f s).states, C t) ∧ _
  cases hanswer : (x s).answer with
  | error e =>
    have hbind : Script.bind x f s = { states := (x s).states, answer := .error e } := by
      rw [Script.bind, hanswer]
    refine ⟨by rw [hbind]; exact hcrash, ?_⟩
    intro b hb
    rw [show (x >>= f) s = _ from hbind] at hb
    cases hb
  | ok a =>
    have hbind : Script.bind x f s =
        { states := (x s).states ++ (f a (endOf s (x s).states)).states
          answer := (f a (endOf s (x s).states)).answer } := by
      rw [Script.bind, hanswer]
    obtain ⟨hcrash', hreturn'⟩ := hf a _ (hreturn a hanswer)
    refine ⟨?_, ?_⟩
    · rw [hbind]
      intro t ht
      rcases List.mem_append.1 ht with ht | ht
      · exact hcrash t ht
      · exact hcrash' t ht
    · intro b hb
      rw [show (x >>= f) s = _ from hbind] at hb ⊢
      rw [endOf_append]
      exact hreturn' b hb

theorem Triple.lift_bind {x : Except ε α} (h : ∀ a, x = .ok a → Triple P (f a) R C) :
    Triple P (Script.lift x >>= f) R C := by
  cases x with
  | error e => exact fun _ _ => ⟨fun _ ht => (nomatch ht), fun _ hb => (nomatch hb)⟩
  | ok a => exact h a rfl

theorem Triple.attempt (h : Triple P x Q C) (hP : ∀ s, P s → C s) :
    Triple P (Script.attempt x) (fun answer s => match answer with
      | .ok a => Q a s
      | .error _ => C s) C := by
  intro s hs
  obtain ⟨hcrash, hreturn⟩ := h s hs
  refine ⟨hcrash, ?_⟩
  intro answer hanswer
  obtain rfl := Except.ok.inj hanswer
  show match (x s).answer with
    | .ok a => Q a (endOf s (x s).states)
    | .error _ => C (endOf s (x s).states)
  cases hx : (x s).answer with
  | ok a => exact hreturn a hx
  | error e =>
    show C (endOf s (x s).states)
    rw [endOf]
    cases hlast : (x s).states.getLast? with
    | none => exact hP s hs
    | some t => exact hcrash t (List.mem_of_getLast? hlast)

/-- A loop that collects what its rounds return: the invariant is about
what is collected and what is left. -/
theorem Triple.mapM {I : List β → List α → σ → Prop}
    (h : ∀ done a rest, Triple (I done (a :: rest)) (f a) (fun b => I (done ++ [b]) rest) C)
    (done : List β) (l : List α) :
    Triple (I done l) (l.mapM f) (fun bs => I (done ++ bs) []) C := by
  induction l generalizing done with
  | nil =>
    rw [List.mapM_nil]
    refine Triple.pure ?_
    intro s hs
    rw [List.append_nil]
    exact hs
  | cons a l ih =>
    rw [List.mapM_cons]
    refine (h done a l).bind ?_
    intro b
    refine (ih (done ++ [b])).bind ?_
    intro bs
    refine Triple.pure ?_
    intro s hs
    rw [List.append_assoc] at hs
    exact hs

/-- A loop whose rounds keep `P` and relate what they return to the element
they are about. -/
theorem Triple.mapM_forall₂ {R : α → β → Prop} {l : List α}
    (h : ∀ a ∈ l, Triple P (f a) (fun b s => P s ∧ R a b) C) :
    Triple P (l.mapM f) (fun bs s => P s ∧ List.Forall₂ R l bs) C := by
  induction l with
  | nil =>
    rw [List.mapM_nil]
    exact Triple.pure fun s hs => ⟨hs, List.Forall₂.nil⟩
  | cons a l ih =>
    rw [List.mapM_cons]
    refine (h a (List.mem_cons_self ..)).bind ?_
    intro b
    have hrest : Triple (fun s => P s ∧ R a b) (l.mapM f)
        (fun bs s => (P s ∧ List.Forall₂ R l bs) ∧ R a b) C := by
      intro s hs
      obtain ⟨hcrash, hreturn⟩ := ih (fun a ha => h a (List.mem_cons_of_mem _ ha)) s hs.1
      exact ⟨hcrash, fun bs hbs => ⟨hreturn bs hbs, hs.2⟩⟩
    refine hrest.bind ?_
    intro bs
    exact Triple.pure fun s hs => ⟨hs.1.1, List.Forall₂.cons hs.2 hs.1.2⟩

theorem Triple.forM {f : α → Script σ ε PUnit} {I : List α → σ → Prop}
    (h : ∀ a rest, Triple (I (a :: rest)) (f a) (fun _ => I rest) C) (l : List α) :
    Triple (I l) (l.forM f) (fun _ => I []) C := by
  induction l with
  | nil => exact Triple.pure fun _ hs => hs
  | cons a l ih => exact (h a l).bind fun _ => ih

theorem Triple.fix (h : ∀ s, P s → Triple (fun t => t = s) x Q C) : Triple P x Q C :=
  fun s hs => h s hs s rfl

/-- Wherever a crash cuts a script off, the state is the one it found or
one that its writes may leave. -/
theorem Triple.upTo (h : Triple P x Q C) {s : σ} (hs : P s) (hC : C s) (n : Nat) :
    C (x.upTo n s) := by
  rw [Script.upTo, endOf]
  cases hlast : ((x s).states.take n).getLast? with
  | none => exact hC
  | some t =>
    have hmem := List.mem_of_getLast? hlast
    exact (h s hs).1 t (List.mem_of_mem_take hmem)

end

end Script

end OperatorRuntime.Lib
