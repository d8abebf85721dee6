/-
JSON text can be read back: `stringify` is injective on the values
JavaScript can hold (`stringify_inj`), so two values have one
`canonicalJson` text exactly when they are equal up to the order of
object keys (`canonicalJson_inj`).

The argument is about prefixes: the text of a value, followed by a
comma, a closing bracket or nothing, determines both the value and what
follows. The first character tells the kind of the value; strings end at
the first unescaped quote, numbers at the first character that is not
one of theirs, and arrays and objects by `Lib.intercalate_inj`.
-/
import Mathlib.Tactic.IntervalCases
import OperatorRuntime.Json
import OperatorRuntime.Lib.Delimited

namespace OperatorRuntime.Json

open Lib

-- ===== well-formedness

def isNumberChar (c : Char) : Bool :=
  c.isDigit || c == '-' || c == '+' || c == '.' || c == 'e' || c == 'E'

/-- The text of a finite number: number characters, a digit or a minus
sign first. -/
def isNumberText (text : String) : Bool :=
  text.toList.all isNumberChar && text.toList.head?.any fun c => c.isDigit || c == '-'

/-- A value of JavaScript: numbers are number texts and the keys of an
object are distinct. -/
inductive WellFormed : Json → Prop
  | null : WellFormed .null
  | bool (b : Bool) : WellFormed (.bool b)
  | num {text : String} : isNumberText text = true → WellFormed (.num text)
  | str (s : String) : WellFormed (.str s)
  | arr {items : List Json} :
      (∀ item ∈ items, WellFormed item) → WellFormed (.arr items)
  | obj {fields : List (String × Json)} : (fields.map Prod.fst).Nodup →
      (∀ field ∈ fields, WellFormed field.2) → WellFormed (.obj fields)

theorem isNumberText_toString (n : Nat) : isNumberText (toString n) = true := by
  have hdigit : ∀ c ∈ Nat.toDigits 10 n, c.isDigit = true :=
    fun c hc => Nat.isDigit_of_mem_toDigits (by decide) (by decide) hc
  have htext : (toString n).toList = Nat.toDigits 10 n := Nat.toList_repr
  rw [isNumberText, htext, Bool.and_eq_true]
  constructor
  · rw [List.all_eq_true]
    intro c hc
    rw [isNumberChar, hdigit c hc]
    rfl
  · cases hdigits : Nat.toDigits 10 n with
    | nil => exact absurd hdigits Nat.toDigits_ne_nil
    | cons c cs =>
      have hc := hdigit c (hdigits ▸ List.mem_cons_self ..)
      rw [List.head?_cons, Option.any_some, hc]
      rfl

theorem induct {P : Json → Prop} (null : P .null) (bool : ∀ b, P (.bool b))
    (num : ∀ text, P (.num text)) (str : ∀ s, P (.str s))
    (arr : ∀ items, (∀ item ∈ items, P item) → P (.arr items))
    (obj : ∀ fields : List (String × Json), (∀ field ∈ fields, P field.2) →
      P (.obj fields)) (v : Json) : P v := by
  refine @Json.rec P (fun items => ∀ item ∈ items, P item)
    (fun fields => ∀ field ∈ fields, P field.2) (fun field => P field.2)
    null bool num str (fun items h => arr items h) (fun fields h => obj fields h)
    ?_ ?_ ?_ ?_ ?_ v
  · intro item h
    cases h
  · intro item items hitem hitems x hx
    rcases List.mem_cons.1 hx with rfl | hx
    · exact hitem
    · exact hitems x hx
  · intro field h
    cases h
  · intro field fields hfield hfields x hx
    rcases List.mem_cons.1 hx with rfl | hx
    · exact hfield
    · exact hfields x hx
  · intro key value h
    exact h

-- ===== strings

def hexValue (c : Char) : Option Nat :=
  if '0' ≤ c && c ≤ '9' then some (c.toNat - 48)
  else if 'a' ≤ c && c ≤ 'f' then some (c.toNat - 87)
  else if 'A' ≤ c && c ≤ 'F' then some (c.toNat - 55)
  else none

/-- The code unit of `\uXXXX`. -/
def hex4 (a b c d : Char) : Option Nat := do
  let a ← hexValue a
  let b ← hexValue b
  let c ← hexValue c
  let d ← hexValue d
  return 4096 * a + 256 * b + 16 * c + d

/-- The scalar value of an escape: a second unit completes a pair. -/
def readUnit (n : Nat) (rest : List Char) : Option (Char × List Char) :=
  if n < 0xd800 ∨ 0xdfff < n then some (Char.ofNat n, rest)
  else
    match rest with
    | '\\' :: 'u' :: a :: b :: c :: d :: rest =>
      (hex4 a b c d).bind fun low =>
        if n < 0xdc00 ∧ 0xdc00 ≤ low ∧ low ≤ 0xdfff then
          some (Char.ofNat (0x10000 + 0x400 * (n - 0xd800) + (low - 0xdc00)), rest)
        else none
    | _ => none

/-- One character of a string literal, and what follows. -/
def readChar : List Char → Option (Char × List Char)
  | '\\' :: '"' :: rest => some ('"', rest)
  | '\\' :: '\\' :: rest => some ('\\', rest)
  | '\\' :: '/' :: rest => some ('/', rest)
  | '\\' :: 'b' :: rest => some (Char.ofNat 8, rest)
  | '\\' :: 't' :: rest => some (Char.ofNat 9, rest)
  | '\\' :: 'n' :: rest => some (Char.ofNat 10, rest)
  | '\\' :: 'f' :: rest => some (Char.ofNat 12, rest)
  | '\\' :: 'r' :: rest => some (Char.ofNat 13, rest)
  | '\\' :: 'u' :: a :: b :: c :: d :: rest => (hex4 a b c d).bind fun n => readUnit n rest
  | '\\' :: _ => none
  | c :: rest => if c.toNat < 32 then none else some (c, rest)
  | [] => none

theorem readChar_escapeChar (c : Char) (rest : List Char) :
    readChar ((escapeChar c).toList ++ rest) = some (c, rest) := by
  by_cases hquote : c = '"'
  · subst hquote
    rfl
  by_cases hslash : c = '\\'
  · subst hslash
    rfl
  by_cases hcontrol : c.toNat < 32
  · have hall : ∀ n < 32, readChar ((escapeChar (Char.ofNat n)).toList ++ rest)
        = some (Char.ofNat n, rest) := by
      intro n hn
      interval_cases n <;> rfl
    have hc := hall c.toNat hcontrol
    rwa [Char.ofNat_toNat] at hc
  · have hplain : escapeChar c = String.singleton c := by
      have hne : ∀ n < 32, (c.toNat == n) = false := by
        intro n hn
        exact beq_false_of_ne (by omega)
      simp only [escapeChar, beq_false_of_ne hquote, beq_false_of_ne hslash,
        hne 8 (by omega), hne 9 (by omega), hne 10 (by omega),
        hne 12 (by omega), hne 13 (by omega), hcontrol, Bool.false_eq_true,
        if_false]
    rw [hplain, String.toList_singleton, List.singleton_append]
    simp [readChar, hslash, hcontrol]

variable {r s : List Char}

theorem escaped_inj {cs ds : List Char} (h : cs.flatMap (fun c => (escapeChar c).toList) ++ '"' :: r
      = ds.flatMap (fun c => (escapeChar c).toList) ++ '"' :: s) : cs = ds ∧ r = s := by
  have hquote : ∀ c (t u : List Char), (escapeChar c).toList ++ t ≠ '"' :: u := by
    intro c t u heq
    have hread := readChar_escapeChar c t
    rw [heq] at hread
    obtain ⟨rfl, -⟩ := Prod.mk.inj (Option.some.inj hread)
    exact absurd (List.cons.inj heq).1 (by decide)
  induction cs generalizing ds with
  | nil =>
    cases ds with
    | nil => exact ⟨rfl, (List.cons.inj h).2⟩
    | cons d ds =>
      rw [List.flatMap_cons, List.append_assoc] at h
      exact absurd h.symm (hquote d _ _)
  | cons c cs ih =>
    cases ds with
    | nil =>
      rw [List.flatMap_cons, List.append_assoc] at h
      exact absurd h (hquote c _ _)
    | cons d ds =>
      rw [List.flatMap_cons, List.flatMap_cons, List.append_assoc, List.append_assoc] at h
      have hread := congrArg readChar h
      rw [readChar_escapeChar, readChar_escapeChar, Option.some.injEq, Prod.mk.injEq] at hread
      obtain ⟨rfl, hrest⟩ := hread
      obtain ⟨rfl, rfl⟩ := ih hrest
      exact ⟨rfl, rfl⟩

theorem toList_quote (s : String) : (quote s).toList
    = '"' :: (s.toList.flatMap (fun c => (escapeChar c).toList) ++ ['"']) := by
  rw [quote, String.toList_append, String.toList_append, String.toList_join, List.flatMap_map]
  rfl

theorem quote_inj {a b : String} (h : (quote a).toList ++ r = (quote b).toList ++ s) :
    a = b ∧ r = s := by
  rw [toList_quote, toList_quote, List.cons_append, List.cons_append,
    List.append_assoc, List.append_assoc] at h
  obtain ⟨hlist, hrest⟩ := escaped_inj (List.cons.inj h).2
  exact ⟨String.toList_injective hlist, hrest⟩

-- ===== values

/-- What may follow a value inside a JSON text. -/
def isClose (c : Char) : Prop :=
  c = ',' ∨ c = ']' ∨ c = '\x7d'

theorem toList_stringify_arr (items : List Json) : (stringify (.arr items)).toList
    = '[' :: ([','].intercalate (items.map fun v => (stringify v).toList) ++ [']']) := by
  have hitems : ∀ items : List Json, (stringifyItems items).map String.toList
      = items.map fun v => (stringify v).toList := by
    intro items
    induction items with
    | nil => rfl
    | cons item items ih => rw [stringifyItems, List.map_cons, List.map_cons, ih]
  rw [stringify, String.toList_append, String.toList_append, String.toList_intercalate, hitems]
  rfl

def fieldText (field : String × Json) : List Char :=
  (quote field.1).toList ++ ':' :: (stringify field.2).toList

theorem toList_stringify_obj (fields : List (String × Json)) : (stringify (.obj fields)).toList
    = '\x7b' :: ([','].intercalate (fields.map fieldText) ++ ['\x7d']) := by
  have hfields : ∀ fields : List (String × Json),
      (stringifyFields fields).map String.toList = fields.map fieldText := by
    intro fields
    induction fields with
    | nil => rfl
    | cons field fields ih =>
      obtain ⟨key, value⟩ := field
      rw [stringifyFields, List.map_cons, List.map_cons, ih, fieldText,
        String.toList_append, String.toList_append, List.append_assoc]
      rfl
  rw [stringify, String.toList_append, String.toList_append, String.toList_intercalate, hfields]
  rfl

def kind : Json → Nat
  | .null => 0
  | .bool _ => 1
  | .num _ => 2
  | .str _ => 3
  | .arr _ => 4
  | .obj _ => 5

/-- The kind of the value a text starts with. -/
def kindOfChar (c : Char) : Nat :=
  if c = 'n' then 0
  else if c = 't' ∨ c = 'f' then 1
  else if c = '"' then 3
  else if c = '[' then 4
  else if c = '\x7b' then 5
  else if c.isDigit || c == '-' then 2
  else 6

variable {v : Json}

theorem WellFormed.kind_eq (h : v.WellFormed) (r : List Char) :
    ((stringify v).toList ++ r).head?.map kindOfChar = some v.kind := by
  cases h with
  | null => rfl
  | bool b =>
    cases b with
    | false => rfl
    | true => rfl
  | num htext =>
    rename_i text
    rw [isNumberText, Bool.and_eq_true] at htext
    obtain ⟨c, hc, hdigit⟩ := (Option.any_eq_true _ _).1 htext.2
    have hkind : kindOfChar c = 2 := by
      have hne : ∀ d : Char, (d.isDigit || d == '-') = false → c ≠ d := by
        rintro d hd rfl
        rw [hdigit] at hd
        cases hd
      rw [kindOfChar, if_neg (hne 'n' (by decide)), if_neg, if_neg (hne '"' (by decide)),
        if_neg (hne '[' (by decide)), if_neg (hne '\x7b' (by decide)),
        if_pos hdigit]
      rintro (h | h)
      · exact hne 't' (by decide) h
      · exact hne 'f' (by decide) h
    rw [stringify]
    cases htl : text.toList with
    | nil =>
      rw [htl] at hc
      cases hc
    | cons d ds =>
      rw [htl, List.head?_cons, Option.some.injEq] at hc
      rw [List.cons_append, List.head?_cons, Option.map_some, hc, hkind]
      rfl
  | str s =>
    rw [stringify, toList_quote]
    rfl
  | arr hitems =>
    rw [toList_stringify_arr]
    rfl
  | obj hkeys hfields =>
    rw [toList_stringify_obj]
    rfl

variable {a b : Json}

theorem kind_eq_of_append_eq (ha : a.WellFormed) (hb : b.WellFormed)
    (h : (stringify a).toList ++ r = (stringify b).toList ++ s) : a.kind = b.kind := by
  have ha := ha.kind_eq r
  rw [h, hb.kind_eq s, Option.some.injEq] at ha
  exact ha.symm

theorem stringify_append_inj (ha : a.WellFormed) (hb : b.WellFormed) (hr : StartsIn isClose r)
    (hs : StartsIn isClose s) (h : (stringify a).toList ++ r = (stringify b).toList ++ s) :
    a = b ∧ r = s := by
  induction a using induct generalizing b r s with
  | null =>
    have hkind := kind_eq_of_append_eq ha hb h
    cases hb with
    | null => exact ⟨rfl, List.append_cancel_left h⟩
    | _ => cases hkind
  | bool x =>
    have hkind := kind_eq_of_append_eq ha hb h
    cases hb with
    | bool y =>
      cases x with
      | false =>
        cases y with
        | false => exact ⟨rfl, List.append_cancel_left h⟩
        | true => exact absurd (List.cons.inj h).1 (by decide)
      | true =>
        cases y with
        | false => exact absurd (List.cons.inj h).1 (by decide)
        | true => exact ⟨rfl, List.append_cancel_left h⟩
    | _ => cases hkind
  | num x =>
    have hkind := kind_eq_of_append_eq ha hb h
    cases hb with
    | num hy =>
      rename_i y
      have hinside : ∀ {text : String}, isNumberText text = true →
          ∀ c ∈ text.toList, isNumberChar c = true := by
        intro text htext
        rw [isNumberText, Bool.and_eq_true] at htext
        exact List.all_eq_true.1 htext.1
      have hout : ∀ {t : List Char}, StartsIn isClose t →
          StartsIn (fun c => ¬ isNumberChar c = true) t := by
        intro t ht c hc
        rcases ht c hc with rfl | rfl | rfl
        · decide
        · decide
        · decide
      cases ha with
      | num hx =>
        rw [stringify, stringify] at h
        obtain ⟨htext, hrest⟩ := append_class_inj (hinside hx) (hinside hy)
          (hout hr) (hout hs) h
        rw [String.toList_injective htext]
        exact ⟨rfl, hrest⟩
    | _ => cases hkind
  | str x =>
    have hkind := kind_eq_of_append_eq ha hb h
    cases hb with
    | str y =>
      rw [stringify, stringify] at h
      obtain ⟨rfl, rfl⟩ := quote_inj h
      exact ⟨rfl, rfl⟩
    | _ => cases hkind
  | arr xs ih =>
    have hkind := kind_eq_of_append_eq ha hb h
    cases hb with
    | arr hys =>
      rename_i ys
      cases ha with
      | arr hxs =>
        rw [toList_stringify_arr, toList_stringify_arr, List.cons_append,
          List.cons_append, List.append_assoc, List.append_assoc] at h
        have hmark : ∀ {t : List Char},
            StartsIn (fun c => c = ',' ∨ c = ']') t → StartsIn isClose t := by
          intro t ht c hc
          rcases ht c hc with hc | hc
          · exact .inl hc
          · exact .inr (.inl hc)
        obtain ⟨rfl, rfl⟩ := intercalate_inj (G := WellFormed) (by decide)
          (fun x hx y hy r s hr hs heq =>
            ih x hx (hxs x hx) hy (hmark hr) (hmark hs) heq)
          (by
            intro v hv r s heq
            have hhead := hv.kind_eq r
            rw [heq] at hhead
            cases v with
            | _ => cases hhead)
          hxs hys (List.cons.inj h).2
        exact ⟨rfl, rfl⟩
    | _ => cases hkind
  | obj xs ih =>
    have hkind := kind_eq_of_append_eq ha hb h
    cases hb with
    | obj hykeys hys =>
      rename_i ys
      cases ha with
      | obj hxkeys hxs =>
        rw [toList_stringify_obj, toList_stringify_obj, List.cons_append,
          List.cons_append, List.append_assoc, List.append_assoc] at h
        have hmark : ∀ {t : List Char}, StartsIn (fun c => c = ',' ∨ c = '\x7d') t →
            StartsIn isClose t := by
          intro t ht c hc
          rcases ht c hc with hc | hc
          · exact .inl hc
          · exact .inr (.inr hc)
        obtain ⟨rfl, rfl⟩ := intercalate_inj
          (G := fun field : String × Json => field.2.WellFormed)
          (by decide)
          (by
            intro x hx y hy r s hr hs heq
            rw [fieldText, fieldText, List.append_assoc, List.append_assoc,
              List.cons_append, List.cons_append] at heq
            obtain ⟨hkey, hrest⟩ := quote_inj heq
            obtain ⟨hvalue, hend⟩ := ih x hx (hxs x hx) hy (hmark hr)
              (hmark hs) (List.cons.inj hrest).2
            exact ⟨Prod.ext hkey hvalue, hend⟩)
          (by
            intro field _ r s heq
            rw [fieldText, toList_quote] at heq
            exact absurd (List.cons.inj heq).1 (by decide))
          hxs hys (List.cons.inj h).2
        exact ⟨rfl, rfl⟩
    | _ => cases hkind

theorem stringify_inj (ha : a.WellFormed) (hb : b.WellFormed) (h : stringify a = stringify b) :
    a = b := by
  refine (stringify_append_inj ha hb (r := []) (s := []) ?_ ?_ (by rw [h])).1
  · intro c hc
    cases hc
  · intro c hc
    cases hc

-- ===== key order

theorem unitsLe_total (a b : List Nat) : unitsLe a b = true ∨ unitsLe b a = true := by
  induction a generalizing b with
  | nil => exact .inl rfl
  | cons x a ih =>
    cases b with
    | nil => exact .inr rfl
    | cons y b =>
      simp only [unitsLe, Bool.or_eq_true, decide_eq_true_eq, Bool.and_eq_true, beq_iff_eq]
      rcases Nat.lt_trichotomy x y with hlt | heq | hgt
      · exact .inl (.inl hlt)
      · rcases ih b with h | h
        · exact .inl (.inr ⟨heq, h⟩)
        · exact .inr (.inr ⟨heq.symm, h⟩)
      · exact .inr (.inl hgt)

theorem unitsLe_trans {a b c : List Nat} (hab : unitsLe a b = true)
    (hbc : unitsLe b c = true) : unitsLe a c = true := by
  induction a generalizing b c with
  | nil => rfl
  | cons x a ih =>
    cases b with
    | nil => cases hab
    | cons y b =>
      cases c with
      | nil => cases hbc
      | cons z c =>
        simp only [unitsLe, Bool.or_eq_true, decide_eq_true_eq,
          Bool.and_eq_true, beq_iff_eq] at hab hbc ⊢
        rcases hab with hxy | ⟨rfl, hab⟩
        · rcases hbc with hyz | ⟨rfl, -⟩
          · exact .inl (by omega)
          · exact .inl hxy
        · rcases hbc with hyz | ⟨rfl, hbc⟩
          · exact .inl hyz
          · exact .inr ⟨rfl, ih hab hbc⟩

theorem unitsLe_antisymm {a b : List Nat} (hab : unitsLe a b = true)
    (hba : unitsLe b a = true) : a = b := by
  induction a generalizing b with
  | nil =>
    cases b with
    | nil => rfl
    | cons y b => cases hba
  | cons x a ih =>
    cases b with
    | nil => cases hab
    | cons y b =>
      simp only [unitsLe, Bool.or_eq_true, decide_eq_true_eq,
        Bool.and_eq_true, beq_iff_eq] at hab hba
      rcases hab with hxy | ⟨rfl, hab⟩
      · rcases hba with hyx | ⟨rfl, -⟩
        · omega
        · omega
      · rcases hba with hyx | ⟨-, hba⟩
        · omega
        · rw [ih hab hba]

theorem codeUnits_append_inj {c d : Char} {r s : List Nat}
    (h : codeUnits c ++ r = codeUnits d ++ s) : c = d ∧ r = s := by
  have hvalid : ∀ c : Char, c.toNat < 0xd800 ∨ 0xdfff < c.toNat ∧ c.toNat < 0x110000 :=
    fun c => c.valid
  have hc := hvalid c
  have hd := hvalid d
  have heq : ∀ {c d : Char}, c.toNat = d.toNat → c = d := by
    intro c d hcd
    rw [← Char.ofNat_toNat c, hcd, Char.ofNat_toNat]
  rw [codeUnits, codeUnits] at h
  split at h
  · next hc' =>
    split at h
    · next hd' =>
      obtain ⟨hcd, hrs⟩ := List.cons.inj h
      exact ⟨heq hcd, hrs⟩
    · next hd' =>
      have hcd := (List.cons.inj h).1
      omega
  · next hc' =>
    split at h
    · next hd' =>
      have hcd := (List.cons.inj h).1
      omega
    · next hd' =>
      obtain ⟨h1, hrest⟩ := List.cons.inj h
      obtain ⟨h2, hrs⟩ := List.cons.inj hrest
      exact ⟨heq (by omega), hrs⟩

theorem codeUnits_inj {cs ds : List Char}
    (h : cs.flatMap codeUnits = ds.flatMap codeUnits) : cs = ds := by
  have hne : ∀ (c : Char) (r : List Nat), codeUnits c ++ r ≠ [] := by
    intro c r
    rw [codeUnits]
    split
    · exact List.cons_ne_nil _ _
    · exact List.cons_ne_nil _ _
  induction cs generalizing ds with
  | nil =>
    cases ds with
    | nil => rfl
    | cons d ds =>
      rw [List.flatMap_cons] at h
      exact absurd h.symm (hne d _)
  | cons c cs ih =>
    cases ds with
    | nil =>
      rw [List.flatMap_cons] at h
      exact absurd h (hne c _)
    | cons d ds =>
      rw [List.flatMap_cons, List.flatMap_cons] at h
      obtain ⟨rfl, hrest⟩ := codeUnits_append_inj h
      rw [ih hrest]

theorem keyLe_antisymm {a b : String} (hab : keyLe a b = true) (hba : keyLe b a = true) : a = b :=
  String.toList_injective (codeUnits_inj (unitsLe_antisymm hab hba))

theorem keyLe_trans {a b c : String} (hab : keyLe a b = true) (hbc : keyLe b c = true) :
    keyLe a c = true :=
  unitsLe_trans hab hbc

theorem keyLe_of_not {a b : String} (h : keyLe a b = false) : keyLe b a = true := by
  refine (unitsLe_total _ _).resolve_left ?_
  rw [← keyLe, h]
  decide

theorem insertionSort_keyLe_eq {xs ys : List (String × Json)}
    (hperm : xs.Perm ys) (hkeys : (xs.map Prod.fst).Nodup) :
    (xs.insertionSort fun a b => keyLe a.1 b.1 = true)
    = ys.insertionSort fun a b => keyLe a.1 b.1 = true := by
  have : Std.Total fun a b : String × Json => keyLe a.1 b.1 = true :=
    ⟨fun a b => unitsLe_total _ _⟩
  have : IsTrans (String × Json) fun a b => keyLe a.1 b.1 = true :=
    ⟨fun _ _ _ => unitsLe_trans⟩
  refine List.Perm.eq_of_pairwise ?_ (List.pairwise_insertionSort _ xs)
    (List.pairwise_insertionSort _ ys)
    ((List.perm_insertionSort _ xs).trans (hperm.trans (List.perm_insertionSort _ ys).symm))
  intro a b ha hb hab hba
  refine List.inj_on_of_nodup_map hkeys (List.mem_insertionSort _ |>.1 ha) ?_
    (keyLe_antisymm hab hba)
  exact hperm.mem_iff.2 (List.mem_insertionSort _ |>.1 hb)

theorem sortTexts_sorted (values : List String) :
    (sortTexts values).Pairwise fun a b => keyLe a b = true := by
  have : Std.Total fun a b : String => keyLe a b = true := ⟨fun a b => unitsLe_total _ _⟩
  have : IsTrans String fun a b => keyLe a b = true := ⟨fun _ _ _ => unitsLe_trans⟩
  exact List.pairwise_insertionSort _ values

theorem sortTexts_sortTexts (values : List String) :
    sortTexts (sortTexts values) = sortTexts values :=
  (sortTexts_sorted values).insertionSort_eq

-- ===== canonicalJson

theorem canonicalizeItems_eq (items : List Json) :
    canonicalizeItems items = items.map canonicalize := by
  induction items with
  | nil => rfl
  | cons item items ih => rw [canonicalizeItems, ih, List.map_cons]

def canonicalField (field : String × Json) : String × Json :=
  (field.1, canonicalize field.2)

theorem canonicalizeFields_eq (fields : List (String × Json)) :
    canonicalizeFields fields = fields.map canonicalField := by
  induction fields with
  | nil => rfl
  | cons field fields ih =>
    obtain ⟨key, value⟩ := field
    rw [canonicalizeFields, ih, List.map_cons, canonicalField]

theorem ownOrder_perm (fields : List (String × Json)) : (ownOrder fields).Perm fields := by
  have hnone : ∀ f : String × Json, (arrayIndex? f.1).isNone = !(arrayIndex? f.1).isSome := by
    intro f
    cases arrayIndex? f.1 with
    | none => rfl
    | some i => rfl
  rw [ownOrder]
  refine (List.Perm.append_right _ (List.perm_insertionSort _ _)).trans ?_
  rw [List.filter_congr fun f _ => hnone f]
  exact List.filter_append_perm _ _

theorem ownOrder_append {xs ys : List (String × Json)}
    (hindexed : ∀ f ∈ xs, (arrayIndex? f.1).isSome = true)
    (hsorted : xs.Pairwise fun a b => (arrayIndex? a.1).getD 0 ≤ (arrayIndex? b.1).getD 0)
    (hnamed : ∀ f ∈ ys, arrayIndex? f.1 = none) : ownOrder (xs ++ ys) = xs ++ ys := by
  have hfirst : (xs ++ ys).filter (fun f => (arrayIndex? f.1).isSome) = xs := by
    rw [List.filter_append, List.filter_eq_self.2 hindexed, List.filter_eq_nil_iff.2,
      List.append_nil]
    intro f hf
    simp [hnamed f hf]
  have hrest : (xs ++ ys).filter (fun f => (arrayIndex? f.1).isNone) = ys := by
    rw [List.filter_append, List.filter_eq_nil_iff.2, List.nil_append, List.filter_eq_self.2]
    · intro f hf
      simp [hnamed f hf]
    · intro f hf
      simpa using Option.isSome_iff_ne_none.1 (hindexed f hf)
  rw [ownOrder, hfirst, hrest, hsorted.insertionSort_eq]

def canonicalFields (fields : List (String × Json)) : List (String × Json) :=
  ownOrder ((fields.map canonicalField).insertionSort fun a b => keyLe a.1 b.1 = true)

theorem canonicalize_obj (fields : List (String × Json)) :
    canonicalize (.obj fields) = .obj (canonicalFields fields) := by
  rw [canonicalize, canonicalizeFields_eq, canonicalFields]

theorem canonicalFields_perm (fields : List (String × Json)) :
    (canonicalFields fields).Perm (fields.map canonicalField) :=
  (ownOrder_perm _).trans (List.perm_insertionSort _ _)

theorem map_fst_canonicalField (fields : List (String × Json)) :
    (fields.map canonicalField).map Prod.fst = fields.map Prod.fst := by
  rw [List.map_map]
  rfl

theorem nodup_canonicalFields {fields : List (String × Json)}
    (h : (fields.map Prod.fst).Nodup) : ((canonicalFields fields).map Prod.fst).Nodup := by
  rwa [((canonicalFields_perm fields).map Prod.fst).nodup_iff, map_fst_canonicalField]

theorem mem_canonicalFields {fields : List (String × Json)} {field : String × Json}
    (h : field ∈ canonicalFields fields) : ∃ f ∈ fields, canonicalField f = field :=
  List.mem_map.1 ((canonicalFields_perm fields).mem_iff.1 h)

theorem WellFormed.canonicalize (h : v.WellFormed) : v.canonicalize.WellFormed := by
  induction h with
  | null => exact .null
  | bool b => exact .bool b
  | num htext => exact .num htext
  | str s => exact .str s
  | @arr items _ ih =>
    rw [Json.canonicalize, canonicalizeItems_eq]
    refine .arr ?_
    intro item hitem
    obtain ⟨item, hmem, rfl⟩ := List.mem_map.1 hitem
    exact ih item hmem
  | @obj fields hkeys _ ih =>
    rw [canonicalize_obj]
    refine .obj (nodup_canonicalFields hkeys) ?_
    intro field hfield
    obtain ⟨field, hmem, rfl⟩ := mem_canonicalFields hfield
    exact ih field hmem

theorem canonicalJson_inj (ha : a.WellFormed) (hb : b.WellFormed) :
    canonicalJson a = canonicalJson b ↔ canonicalize a = canonicalize b := by
  constructor
  · intro h
    exact stringify_inj ha.canonicalize hb.canonicalize h
  · intro h
    rw [canonicalJson, h, canonicalJson]

theorem canonicalField_eq {fs gs : List (String × Json)}
    (hperm : (fs.map canonicalField).Perm (gs.map canonicalField))
    (hkeys : (gs.map Prod.fst).Nodup) {f g : String × Json} (hf : f ∈ fs)
    (hg : g ∈ gs) (hkey : f.1 = g.1) : canonicalize f.2 = canonicalize g.2 := by
  obtain ⟨g', hg', heq⟩ :=
    List.mem_map.1 (hperm.mem_iff.1 (List.mem_map_of_mem (f := canonicalField) hf))
  have hsame : g' = g :=
    List.inj_on_of_nodup_map hkeys hg' hg ((Prod.mk.inj heq).1.trans hkey)
  rw [← hsame]
  exact (Prod.mk.inj heq).2.symm

theorem canonicalFields_eq_perm {fs gs : List (String × Json)}
    (h : canonicalize (.obj fs) = canonicalize (.obj gs)) :
    (fs.map canonicalField).Perm (gs.map canonicalField) := by
  rw [canonicalize_obj, canonicalize_obj] at h
  have hfields := Json.obj.inj h
  exact (canonicalFields_perm fs).symm.trans
    (hfields ▸ canonicalFields_perm gs)

theorem field?_eq_some {w : Json} {key : String} (h : v.field? key = some w) :
    ∃ fields, v = .obj fields ∧ (key, w) ∈ fields := by
  cases v with
  | obj fields =>
    rw [field?, Option.map_eq_some_iff] at h
    obtain ⟨field, hfind, rfl⟩ := h
    have hkey : field.1 = key := by simpa using List.find?_some hfind
    exact ⟨fields, rfl, hkey ▸ List.mem_of_find?_eq_some hfind⟩
  | _ => simp [field?] at h

theorem field_eq_of_canonicalize_eq (h : canonicalize a = canonicalize b) (hb : b.WellFormed)
    {k : String} {w : Json} (hv : a.field? k = some v) (hw : b.field? k = some w) :
    canonicalize v = canonicalize w := by
  obtain ⟨fs, rfl, hf⟩ := field?_eq_some hv
  obtain ⟨gs, rfl, hg⟩ := field?_eq_some hw
  cases hb with
  | obj hkeys _ =>
    exact canonicalField_eq (canonicalFields_eq_perm h) hkeys hf hg rfl

theorem canonicalize_texts (texts : List String) :
    (Json.arr (texts.map .str)).canonicalize = .arr (texts.map .str) := by
  rw [canonicalize, canonicalizeItems_eq, List.map_map]
  rfl

theorem texts_eq_of_canonicalize_eq {a b : List String}
    (h : (Json.arr (a.map .str)).canonicalize = (Json.arr (b.map .str)).canonicalize) : a = b := by
  rw [canonicalize_texts, canonicalize_texts, Json.arr.injEq] at h
  have hinj : Function.Injective Json.str := fun _ _ h => Json.str.inj h
  exact hinj.list_map h

/-- Equal up to the order of keys, at every depth. -/
inductive Same : Json → Json → Prop
  | null : Same .null .null
  | bool (b : Bool) : Same (.bool b) (.bool b)
  | num (text : String) : Same (.num text) (.num text)
  | str (s : String) : Same (.str s) (.str s)
  | arr {xs ys : List Json} : xs.length = ys.length →
      (∀ p ∈ xs.zip ys, Same p.1 p.2) → Same (.arr xs) (.arr ys)
  | obj {fs gs : List (String × Json)} :
      (fs.map Prod.fst).Perm (gs.map Prod.fst) →
      (∀ f ∈ fs, ∀ g ∈ gs, f.1 = g.1 → Same f.2 g.2) → Same (.obj fs) (.obj gs)

theorem Same.canonicalize_eq (h : Same a b) (ha : a.WellFormed) (hb : b.WellFormed) :
    canonicalize a = canonicalize b := by
  induction h with
  | null => rfl
  | bool b => rfl
  | num text => rfl
  | str s => rfl
  | @arr xs ys hlen _ ih =>
    cases ha with
    | arr hxs =>
    cases hb with
    | arr hys =>
    rw [canonicalize, canonicalize, canonicalizeItems_eq, canonicalizeItems_eq]
    congr 1
    refine List.ext_getElem (by simpa using hlen) ?_
    intro i hi hj
    simp only [List.length_map] at hi hj
    have hmem : (xs[i], ys[i]) ∈ xs.zip ys := by
      rw [← List.getElem_zip (h := by simp [hi, hj])]
      exact List.getElem_mem _
    simpa using ih _ hmem (hxs _ (List.getElem_mem _)) (hys _ (List.getElem_mem _))
  | @obj fs gs hkeys _ ih =>
    cases ha with
    | obj hfs hvals =>
    cases hb with
    | obj hgs hvals' =>
    have hmem : ∀ x, x ∈ fs.map canonicalField ↔ x ∈ gs.map canonicalField := by
      intro x
      constructor
      · intro hx
        obtain ⟨f, hf, rfl⟩ := List.mem_map.1 hx
        obtain ⟨g, hg, hfg⟩ :=
          List.mem_map.1 (hkeys.mem_iff.1 (List.mem_map_of_mem (f := Prod.fst) hf))
        refine List.mem_map.2 ⟨g, hg, ?_⟩
        exact Prod.ext hfg (ih f hf g hg hfg.symm (hvals f hf) (hvals' g hg)).symm
      · intro hx
        obtain ⟨g, hg, rfl⟩ := List.mem_map.1 hx
        obtain ⟨f, hf, hfg⟩ :=
          List.mem_map.1 (hkeys.mem_iff.2 (List.mem_map_of_mem (f := Prod.fst) hg))
        refine List.mem_map.2 ⟨f, hf, ?_⟩
        exact Prod.ext hfg (ih f hf g hg hfg (hvals f hf) (hvals' g hg))
    have hnodup : ∀ {hs : List (String × Json)}, (hs.map Prod.fst).Nodup →
        ((hs.map canonicalField).map Prod.fst).Nodup := by
      intro hs h
      rwa [map_fst_canonicalField]
    have hperm := (List.perm_ext_iff_of_nodup (hnodup hfs).of_map (hnodup hgs).of_map).2 hmem
    rw [canonicalize_obj, canonicalize_obj, canonicalFields, canonicalFields,
      insertionSort_keyLe_eq hperm (hnodup hfs)]

theorem same_of_canonicalize_eq (a : Json) : ∀ {b : Json}, b.WellFormed →
    canonicalize a = canonicalize b → Same a b := by
  induction a using induct with
  | null =>
    intro b hb h
    cases b with
    | null => exact .null
    | _ => simp [canonicalize] at h
  | bool x =>
    intro b hb h
    cases b with
    | bool y =>
      simp only [canonicalize, Json.bool.injEq] at h
      exact h ▸ .bool x
    | _ => simp [canonicalize] at h
  | num x =>
    intro b hb h
    cases b with
    | num y =>
      simp only [canonicalize, Json.num.injEq] at h
      exact h ▸ .num x
    | _ => simp [canonicalize] at h
  | str x =>
    intro b hb h
    cases b with
    | str y =>
      simp only [canonicalize, Json.str.injEq] at h
      exact h ▸ .str x
    | _ => simp [canonicalize] at h
  | arr xs ih =>
    intro b hb h
    cases hb with
    | @arr ys hys =>
      rw [canonicalize, canonicalize, canonicalizeItems_eq, canonicalizeItems_eq] at h
      have hmap := Json.arr.inj h
      have hlen : xs.length = ys.length := by
        simpa using congrArg List.length hmap
      refine .arr hlen ?_
      intro p hp
      obtain ⟨i, hi, rfl⟩ := List.mem_iff_getElem.1 hp
      rw [List.getElem_zip]
      rw [List.length_zip] at hi
      refine ih _ (List.getElem_mem _) (hys _ (List.getElem_mem _)) ?_
      have hget := List.getElem_of_eq hmap (i := i) (by simp; omega)
      simpa using hget
    | _ => simp [canonicalize] at h
  | obj fs ih =>
    intro b hb h
    cases hb with
    | @obj gs hgs hvals =>
      have hperm := canonicalFields_eq_perm h
      refine .obj ?_ ?_
      · have hkeys := hperm.map Prod.fst
        rwa [map_fst_canonicalField, map_fst_canonicalField] at hkeys
      · intro f hf g hg hkey
        exact ih f hf (hvals g hg) (canonicalField_eq hperm hgs hf hg hkey)
    | _ => simp [canonicalize] at h

theorem toString_inj {m n : Nat} (h : toString m = toString n) : m = n := by
  have hlist := congrArg String.toList h
  have htext : ∀ n : Nat, (toString n).toList = Nat.toDigits 10 n :=
    fun _ => Nat.toList_repr
  rw [htext, htext] at hlist
  have hread := congrArg (Nat.ofDigitChars 10 · 0) hlist
  simpa [Nat.ofDigitChars_toDigits] using hread

/-- No two of these texts share their digest. -/
def CollisionFree {δ : Type} (digest : String → δ) (texts : List String) : Prop :=
  ∀ a ∈ texts, ∀ b ∈ texts, digest a = digest b → a = b

end OperatorRuntime.Json
