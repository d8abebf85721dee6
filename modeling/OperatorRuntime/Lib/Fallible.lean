/-
Loops of fallible steps over a list: what a whole loop does from what
one round does. `foldlM_simulates` moves a loop to another
representation of its accumulator, errors included; `mapM_eq_ok` reads
off a validating pass that changes nothing.
-/
import Mathlib.Data.List.Basic

namespace OperatorRuntime.Lib

universe u

variable {α β γ ε : Type u}

variable {a : α}

/-- A round that commutes with `r` under an invariant it keeps makes a
loop that commutes with `r`. -/
theorem foldlM_simulates {f : α → γ → Except ε α} {g : β → γ → Except ε β} {r : α → β}
    {I : α → Prop} {l : List γ}
    (hstep : ∀ a, ∀ c ∈ l, I a → (f a c).map r = g (r a) c ∧ ∀ {a'}, f a c = .ok a' → I a')
    (ha : I a) :
    (l.foldlM f a).map r = l.foldlM g (r a) ∧ ∀ {a'}, l.foldlM f a = .ok a' → I a' := by
  induction l generalizing a with
  | nil =>
    refine ⟨rfl, ?_⟩
    intro a' h
    rw [← Except.ok.inj h]
    exact ha
  | cons c l ih =>
    obtain ⟨hmap, hinv⟩ := hstep a c (List.mem_cons_self ..) ha
    rw [List.foldlM_cons, List.foldlM_cons, ← hmap]
    cases hf : f a c with
    | error e =>
      refine ⟨rfl, ?_⟩
      intro a' h
      cases h
    | ok b =>
      exact ih (fun a d hd => hstep a d (List.mem_cons_of_mem _ hd))
        (hinv hf)

theorem foldlM_invariant {f : α → γ → Except ε α} {I : α → Prop} {l : List γ}
    (hstep : ∀ {a a'}, ∀ c ∈ l, I a → f a c = .ok a' → I a') {a' : α} (ha : I a)
    (h : l.foldlM f a = .ok a') : I a' := by
  induction l generalizing a with
  | nil =>
    rw [← Except.ok.inj h]
    exact ha
  | cons c l ih =>
    rw [List.foldlM_cons] at h
    cases hf : f a c with
    | error e =>
      rw [hf] at h
      cases h
    | ok b =>
      rw [hf] at h
      exact ih (fun d hd => hstep d (List.mem_cons_of_mem _ hd))
        (hstep c (List.mem_cons_self ..) ha hf) h

variable {b : β}

/-- Two loops whose rounds keep their accumulators related, and throw
together, end related or throw together. -/
theorem foldlM_related {f : α → γ → Except ε α} {g : β → γ → Except ε β} {R : α → β → Prop}
    {l : List γ} (hstep : ∀ {a b}, ∀ c ∈ l, R a b → (∃ e, f a c = .error e ∧ g b c = .error e)
        ∨ ∃ a' b', f a c = .ok a' ∧ g b c = .ok b' ∧ R a' b') (hab : R a b) :
    (∃ e, l.foldlM f a = .error e ∧ l.foldlM g b = .error e)
    ∨ ∃ a' b', l.foldlM f a = .ok a' ∧ l.foldlM g b = .ok b' ∧ R a' b' := by
  induction l generalizing a b with
  | nil => exact .inr ⟨a, b, rfl, rfl, hab⟩
  | cons c l ih =>
    rw [List.foldlM_cons, List.foldlM_cons]
    rcases hstep c (List.mem_cons_self ..) hab with
      ⟨e, hf, hg⟩ | ⟨a', b', hf, hg, hab'⟩
    · rw [hf, hg]
      exact .inl ⟨e, rfl, rfl⟩
    · rw [hf, hg]
      exact ih (fun d hd => hstep d (List.mem_cons_of_mem _ hd)) hab'

theorem foldlM_congr {f g : α → γ → Except ε α} {l : List γ}
    (h : ∀ a, ∀ c ∈ l, f a c = g a c) (a : α) : l.foldlM f a = l.foldlM g a := by
  induction l generalizing a with
  | nil => rfl
  | cons c l ih =>
    rw [List.foldlM_cons, List.foldlM_cons, h a c (List.mem_cons_self ..)]
    cases g a c with
    | error e => rfl
    | ok b => exact ih (fun a d hd => h a d (List.mem_cons_of_mem _ hd)) b

variable {f : α → Except ε β} {l : List α} {bs : List β}

theorem mapM_cons_eq_ok : (a :: l).mapM f = .ok bs
    ↔ ∃ b, f a = .ok b ∧ ∃ bs', l.mapM f = .ok bs' ∧ bs = b :: bs' := by
  rw [List.mapM_cons]
  cases hf : f a with
  | error e =>
    constructor
    · intro h
      cases h
    · rintro ⟨b, hb, -⟩
      cases hb
  | ok b =>
    cases hl : l.mapM f with
    | error e =>
      constructor
      · intro h
        cases h
      · rintro ⟨_, -, bs', hbs', -⟩
        cases hbs'
    | ok bs' =>
      constructor
      · intro h
        exact ⟨b, rfl, bs', rfl, (Except.ok.inj h).symm⟩
      · rintro ⟨b', hb, bs'', hbs, rfl⟩
        rw [Except.ok.inj hb, Except.ok.inj hbs]
        rfl

theorem exists_of_mapM_eq_ok (h : l.mapM f = .ok bs) (hb : b ∈ bs) : ∃ a ∈ l, f a = .ok b := by
  induction l generalizing bs with
  | nil =>
    rw [← Except.ok.inj h] at hb
    cases hb
  | cons a l ih =>
    obtain ⟨b', hb', bs', hbs', rfl⟩ := mapM_cons_eq_ok.1 h
    rcases List.mem_cons.1 hb with rfl | hb
    · exact ⟨a, List.mem_cons_self .., hb'⟩
    · obtain ⟨x, hx, hfx⟩ := ih hbs' hb
      exact ⟨x, List.mem_cons_of_mem _ hx, hfx⟩

theorem mem_of_mapM_eq_ok (h : l.mapM f = .ok bs) (ha : a ∈ l) (hb : f a = .ok b) : b ∈ bs := by
  induction l generalizing bs with
  | nil => cases ha
  | cons x l ih =>
    obtain ⟨b', hb', bs', hbs', rfl⟩ := mapM_cons_eq_ok.1 h
    rcases List.mem_cons.1 ha with rfl | ha
    · rw [Except.ok.inj (hb.symm.trans hb')]
      exact List.mem_cons_self ..
    · exact List.mem_cons_of_mem _ (ih hbs' ha)

theorem exists_mapM_eq_ok (h : ∀ a ∈ l, ∃ b, f a = .ok b) : ∃ bs, l.mapM f = .ok bs := by
  induction l with
  | nil => exact ⟨[], rfl⟩
  | cons a l ih =>
    obtain ⟨b, hb⟩ := h a (List.mem_cons_self ..)
    obtain ⟨bs, hbs⟩ := ih fun x hx => h x (List.mem_cons_of_mem _ hx)
    exact ⟨b :: bs, mapM_cons_eq_ok.2 ⟨b, hb, bs, hbs, rfl⟩⟩

theorem mapM_map_eq_ok {g : β → α} {l : List β} (h : ∀ b ∈ l, f (g b) = .ok b) :
    (l.map g).mapM f = .ok l := by
  induction l with
  | nil => rfl
  | cons b l ih =>
    rw [List.map_cons, mapM_cons_eq_ok]
    exact ⟨b, h b (List.mem_cons_self ..), l, ih fun x hx => h x (List.mem_cons_of_mem _ hx), rfl⟩

theorem map_eq_of_mapM_eq_ok {g : β → γ} {k : α → γ} (h : l.mapM f = .ok bs)
    (hf : ∀ a ∈ l, ∀ {b}, f a = .ok b → g b = k a) : bs.map g = l.map k := by
  induction l generalizing bs with
  | nil =>
    rw [← Except.ok.inj h]
    rfl
  | cons a l ih =>
    obtain ⟨b, hb, bs', hbs', rfl⟩ := mapM_cons_eq_ok.1 h
    rw [List.map_cons, List.map_cons, hf a (List.mem_cons_self ..) hb,
      ih hbs' fun x hx => hf x (List.mem_cons_of_mem _ hx)]

theorem mapM_eq_ok {f : α → Except ε α} {V : α → Prop}
    (hf : ∀ {a a'}, f a = .ok a' ↔ a' = a ∧ V a) {l' : List α} :
    l.mapM f = .ok l' ↔ l' = l ∧ ∀ a ∈ l, V a := by
  induction l generalizing l' with
  | nil =>
    constructor
    · intro h
      exact ⟨(Except.ok.inj h).symm, fun a ha => nomatch ha⟩
    · rintro ⟨rfl, -⟩
      rfl
  | cons a l ih =>
    rw [mapM_cons_eq_ok]
    constructor
    · rintro ⟨b, hb, bs, hbs, rfl⟩
      obtain ⟨rfl, hv⟩ := hf.1 hb
      obtain ⟨rfl, hvs⟩ := ih.1 hbs
      refine ⟨rfl, ?_⟩
      intro x hx
      rcases List.mem_cons.1 hx with rfl | hx
      · exact hv
      · exact hvs x hx
    · rintro ⟨rfl, hv⟩
      exact ⟨a, hf.2 ⟨rfl, hv a (List.mem_cons_self ..)⟩, l,
        ih.2 ⟨rfl, fun x hx => hv x (List.mem_cons_of_mem _ hx)⟩, rfl⟩

end OperatorRuntime.Lib
