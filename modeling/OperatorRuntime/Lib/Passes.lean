/-
What fallible code answered, passes over a list that only check, and
passes whose rounds agree.
-/
import OperatorRuntime.Errors
import OperatorRuntime.Lib.Fallible

namespace OperatorRuntime.Lib

variable {α β ε : Type}

theorem toOption_eq_some {x : Except ε α} {a : α} : x.toOption = some a ↔ x = .ok a := by
  cases x with
  | error e =>
    constructor
    · intro h
      cases h
    · intro h
      cases h
  | ok b =>
    constructor
    · intro h
      rw [Option.some.inj h]
    · intro h
      rw [Except.ok.inj h]
      rfl

variable {l : List α}

theorem forM_eq_ok {f : α → Except ε Unit} : l.forM f = .ok () ↔ ∀ a ∈ l, f a = .ok () := by
  induction l with
  | nil => exact ⟨fun _ _ ha => (nomatch ha), fun _ => rfl⟩
  | cons a l ih =>
    show (f a >>= fun _ => l.forM f) = .ok () ↔ _
    rw [bind_eq_ok, List.forall_mem_cons, ← ih]
    exact ⟨fun ⟨(), ha, hl⟩ => ⟨ha, hl⟩, fun ⟨ha, hl⟩ => ⟨(), ha, hl⟩⟩

theorem mapM_congr {f g : α → Except ε β} (h : ∀ a ∈ l, f a = g a) : l.mapM f = l.mapM g := by
  induction l with
  | nil => rfl
  | cons a l ih =>
    rw [List.mapM_cons, List.mapM_cons, h a (List.mem_cons_self ..),
      ih fun b hb => h b (List.mem_cons_of_mem _ hb)]

theorem mapM_eq_input {f : α → Except ε α} (hf : ∀ {a b}, f a = .ok b → b = a) {l' : List α}
    (h : l.mapM f = .ok l') : l' = l := by
  have hmap := map_eq_of_mapM_eq_ok (g := fun a => a) (k := fun a => a) h fun _ _ _ hb => hf hb
  simpa using hmap

theorem optionMapM_eq_input {f : α → Except ε α} (hf : ∀ {a b}, f a = .ok b → b = a)
    {o o' : Option α} (h : o.mapM f = .ok o') : o' = o := by
  cases o with
  | none =>
    cases h
    rfl
  | some a =>
    obtain ⟨b, hb, hb'⟩ :=
      bind_eq_ok.1 (show f a >>= (fun b => .ok (some b)) = .ok o' from h)
    rw [← Except.ok.inj hb', hf hb]

theorem length_mapM {f : α → Except ε β} {bs : List β} (h : l.mapM f = .ok bs) :
    bs.length = l.length := by
  induction l generalizing bs with
  | nil =>
    rw [← Except.ok.inj h]
    rfl
  | cons a l ih =>
    obtain ⟨b, -, bs', hbs, rfl⟩ := mapM_cons_eq_ok.1 h
    rw [List.length_cons, List.length_cons, ih hbs]

/-
Validators that normalise: what such a validator answers, it accepts and
answers again. A stored value that went through one is read back as it
is, however many passes it takes.
-/

/-- Every answer is a fixed point. -/
def Normalizes (f : α → Except ε α) : Prop :=
  ∀ a b : α, f a = .ok b → f b = .ok b

variable {f : α → Except ε α}

theorem mapM_eq_self (h : ∀ a ∈ l, f a = .ok a) : l.mapM f = .ok l := by
  simpa using mapM_map_eq_ok (g := id) h

theorem exists_answer_of_mapM {f : α → Except ε β} {bs : List β} (h : l.mapM f = .ok bs) {a : α}
    (ha : a ∈ l) : ∃ b ∈ bs, f a = .ok b := by
  induction l generalizing bs with
  | nil => cases ha
  | cons x l ih =>
    obtain ⟨b, hb, bs', hbs', rfl⟩ := mapM_cons_eq_ok.1 h
    rcases List.mem_cons.1 ha with rfl | hin
    · exact ⟨b, List.mem_cons_self .., hb⟩
    · obtain ⟨c, hc, hfc⟩ := ih hbs' hin
      exact ⟨c, List.mem_cons_of_mem _ hc, hfc⟩

theorem Normalizes.mem_mapM (h : Normalizes f) {l' : List α} (hl : l.mapM f = .ok l') {a : α}
    (ha : a ∈ l') : f a = .ok a := by
  obtain ⟨b, _, hb⟩ := exists_of_mapM_eq_ok hl ha
  exact h b a hb

theorem Normalizes.mapM (h : Normalizes f) {l' : List α} (hl : l.mapM f = .ok l') :
    l'.mapM f = .ok l' :=
  mapM_eq_self fun _ ha => h.mem_mapM hl ha

theorem Normalizes.optionMapM (h : Normalizes f) {o o' : Option α} (ho : o.mapM f = .ok o') :
    o'.mapM f = .ok o' := by
  cases o with
  | none =>
    cases ho
    rfl
  | some a =>
    obtain ⟨b, hb, hb'⟩ :=
      bind_eq_ok.1 (show f a >>= (fun b => .ok (some b)) = .ok o' from ho)
    cases hb'
    show (f b >>= fun b => .ok (some b)) = .ok (some b)
    rw [h a b hb]
    rfl

end OperatorRuntime.Lib
