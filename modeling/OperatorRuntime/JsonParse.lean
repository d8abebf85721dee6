/-
`JSON.parse`, and its round trip: the text `JSON.stringify` gives a value
reads back as the value (`parse_stringify`).

A number keeps its JavaScript rendering. A safe natural number in plain digits
is its own rendering; what the others are rendered as is a parameter. Texts
are Unicode scalar values, so an escape that leaves half a surrogate pair is
not read.

The parser goes by fuel; twice the length of the text is enough, since every
second call consumes a character.
-/
import Mathlib.Data.List.TakeWhile
import OperatorRuntime.JsonText
import OperatorRuntime.Lib.Keyed
import OperatorRuntime.Text

namespace OperatorRuntime.Json

open Lib

-- ===== conversions

mutual

/-- `String(v)`. -/
def toText : Json → String
  | .null => "null"
  | .bool true => "true"
  | .bool false => "false"
  | .num text => text
  | .str s => s
  | .arr items => String.intercalate "," (itemTexts items)
  | .obj _ => "[object Object]"

def itemTexts : List Json → List String
  | [] => []
  | .null :: items => "" :: itemTexts items
  | item :: items => toText item :: itemTexts items

end

/-- `String(v ?? '')`. -/
def textOf : Option Json → String
  | none => ""
  | some .null => ""
  | some v => toText v

/-- The number of a row of digits. -/
def natOf (ds : List Char) : Option Nat :=
  if ds ≠ [] ∧ ds.all Char.isDigit = true then some (Nat.ofDigitChars 10 ds 0) else none

/-- `Number(v)` of a value that is a number. -/
def numberOf : Option Json → Number
  | some (.num text) =>
    match text.toList with
    | '-' :: ds => ((natOf ds).map fun n => Number.int (-n)).getD .other
    | ds => ((natOf ds).map fun n => Number.int n).getD .other
  | _ => .other

theorem toList_natText (n : Nat) : (toString n).toList = Nat.toDigits 10 n :=
  Nat.toList_repr

theorem natOf_toDigits (n : Nat) : natOf (Nat.toDigits 10 n) = some n := by
  have hdigits : (Nat.toDigits 10 n).all Char.isDigit = true := by
    rw [List.all_eq_true]
    exact fun c hc => Nat.isDigit_of_mem_toDigits (by decide) (by decide) hc
  rw [natOf, if_pos ⟨Nat.toDigits_ne_nil, hdigits⟩, Nat.ofDigitChars_toDigits (by decide) (by decide)]

theorem numberOf_nat (n : Nat) : numberOf (some (.num (toString n))) = .int n := by
  simp only [numberOf, toList_natText]
  split
  · next ds hds =>
    have hminus : '-' ∈ Nat.toDigits 10 n := hds ▸ List.mem_cons_self ..
    exact absurd (Nat.isDigit_of_mem_toDigits (by decide) (by decide) hminus) (by decide)
  · rw [natOf_toDigits]
    rfl

-- ===== strings

def isSpace (c : Char) : Bool :=
  c == ' ' || c == '\t' || c == '\n' || c == '\r'

def skipSpace (cs : List Char) : List Char :=
  cs.dropWhile isSpace

/-- A string literal after its opening quote. -/
def readString : Nat → List Char → Option (List Char × List Char)
  | _, '"' :: rest => some ([], rest)
  | 0, _ => none
  | fuel + 1, cs =>
    (readChar cs).bind fun (c, rest) =>
      (readString fuel rest).map fun (text, rest) => (c :: text, rest)

-- ===== numbers

/-- `-?(0|[1-9][0-9]*)(\.[0-9]+)?([eE][+-]?[0-9]+)?`, without its sign: the
integer part has no leading zero. -/
def isUnsignedToken (cs : List Char) : Bool :=
  let int := cs.takeWhile Char.isDigit
  let rest := cs.dropWhile Char.isDigit
  let (fraction, rest) := match rest with
    | '.' :: rest => (rest.takeWhile Char.isDigit != [], rest.dropWhile Char.isDigit)
    | rest => (true, rest)
  let exponent := match rest with
    | [] => true
    | e :: '+' :: ds => (e == 'e' || e == 'E') && ds != [] && ds.all Char.isDigit
    | e :: '-' :: ds => (e == 'e' || e == 'E') && ds != [] && ds.all Char.isDigit
    | e :: ds => (e == 'e' || e == 'E') && ds != [] && ds.all Char.isDigit
  int != [] && Nat.toDigits 10 (Nat.ofDigitChars 10 int 0) == int && fraction && exponent

def isNumberToken : List Char → Bool
  | '-' :: cs => isUnsignedToken cs
  | cs => isUnsignedToken cs

def renderNumber (render : List Char → String) (token : List Char) : String :=
  match natOf token with
  | some n =>
    if Nat.toDigits 10 n = token ∧ n ≤ maxSafeInteger then String.ofList token else render token
  | none => render token

def readNumber (render : List Char → String) (cs : List Char) : Option (Json × List Char) :=
  let token := cs.takeWhile isNumberChar
  if isNumberToken token then
    some (.num (renderNumber render token), cs.dropWhile isNumberChar)
  else none

-- ===== values

/-- The fields of an object: the last of several of one name, in the place of
the first. -/
def setField (fields : List (String × Json)) (field : String × Json) : List (String × Json) :=
  if fields.any fun f => f.1 == field.1 then
    updateFirst (fun f => f.1 == field.1) (fun _ => field) fields
  else fields ++ [field]

mutual

def readValue (render : List Char → String) : Nat → List Char → Option (Json × List Char)
  | 0, _ => none
  | fuel + 1, cs =>
    match skipSpace cs with
    | 'n' :: 'u' :: 'l' :: 'l' :: rest => some (.null, rest)
    | 't' :: 'r' :: 'u' :: 'e' :: rest => some (.bool true, rest)
    | 'f' :: 'a' :: 'l' :: 's' :: 'e' :: rest => some (.bool false, rest)
    | '"' :: rest =>
      (readString rest.length rest).map fun (text, rest) => (.str (String.ofList text), rest)
    | '[' :: rest =>
      match skipSpace rest with
      | ']' :: rest => some (.arr [], rest)
      | rest => (readItems render fuel rest).map fun (items, rest) => (.arr items, rest)
    | '\x7b' :: rest =>
      match skipSpace rest with
      | '\x7d' :: rest => some (.obj [], rest)
      | rest =>
        (readFields render fuel rest).map fun (fields, rest) =>
          (.obj (ownOrder (fields.foldl setField [])), rest)
    | cs => readNumber render cs

/-- The items of an array up to its closing bracket. -/
def readItems (render : List Char → String) : Nat → List Char → Option (List Json × List Char)
  | 0, _ => none
  | fuel + 1, cs =>
    (readValue render fuel cs).bind fun (item, rest) =>
      match skipSpace rest with
      | ']' :: rest => some ([item], rest)
      | ',' :: rest => (readItems render fuel rest).map fun (items, rest) => (item :: items, rest)
      | _ => none

/-- The fields of an object up to its closing brace. -/
def readFields (render : List Char → String) : Nat → List Char → Option (List (String × Json) × List Char)
  | 0, _ => none
  | fuel + 1, cs =>
    match skipSpace cs with
    | '"' :: rest =>
      (readString rest.length rest).bind fun (key, rest) =>
        match skipSpace rest with
        | ':' :: rest =>
          (readValue render fuel rest).bind fun (value, rest) =>
            match skipSpace rest with
            | '\x7d' :: rest => some ([(String.ofList key, value)], rest)
            | ',' :: rest =>
              (readFields render fuel rest).map fun (fields, rest) =>
                ((String.ofList key, value) :: fields, rest)
            | _ => none
        | _ => none
    | _ => none

end

/-- `JSON.parse(text)`; `none` is a `SyntaxError`. -/
def parse (render : List Char → String) (text : List Char) : Option Json :=
  (readValue render (2 * text.length) text).bind fun (value, rest) =>
    if skipSpace rest = [] then some value else none

-- ===== round trip

/-- A value as `JSON.parse` answers it: the fields of an object stand in their
own order, and a number has its rendering. -/
inductive Parsed (render : List Char → String) : Json → Prop
  | null : Parsed render .null
  | bool (b : Bool) : Parsed render (.bool b)
  | num {text : String} : isNumberText text = true → isNumberToken text.toList = true →
      renderNumber render text.toList = text → Parsed render (.num text)
  | str (s : String) : Parsed render (.str s)
  | arr {items : List Json} : (∀ item ∈ items, Parsed render item) → Parsed render (.arr items)
  | obj {fields : List (String × Json)} : (fields.map Prod.fst).Nodup → ownOrder fields = fields →
      (∀ field ∈ fields, Parsed render field.2) → Parsed render (.obj fields)

variable {render : List Char → String}

variable {v : Json}

theorem Parsed.wellFormed (h : Parsed render v) : v.WellFormed := by
  induction h with
  | null => exact .null
  | bool b => exact .bool b
  | num htext _ _ => exact .num htext
  | str s => exact .str s
  | arr _ ih => exact .arr ih
  | obj hkeys _ _ ih => exact .obj hkeys ih

theorem parsed_nat {n : Nat} (hn : n ≤ maxSafeInteger) : Parsed render (.num (toString n)) := by
  have hdigits : ∀ c ∈ Nat.toDigits 10 n, c.isDigit = true :=
    fun c hc => Nat.isDigit_of_mem_toDigits (by decide) (by decide) hc
  have htake : (Nat.toDigits 10 n).takeWhile Char.isDigit = Nat.toDigits 10 n :=
    List.takeWhile_eq_self_iff.2 hdigits
  have hdrop : (Nat.toDigits 10 n).dropWhile Char.isDigit = [] :=
    List.dropWhile_eq_nil_iff.2 hdigits
  refine .num (isNumberText_toString n) ?_ ?_
  · rw [toList_natText]
    have hunsigned : isUnsignedToken (Nat.toDigits 10 n) = true := by
      simp [isUnsignedToken, htake, hdrop, Nat.toDigits_ne_nil]
    unfold isNumberToken
    split
    · next ds hds =>
      have hminus : '-' ∈ Nat.toDigits 10 n := hds ▸ List.mem_cons_self ..
      exact absurd (hdigits _ hminus) (by decide)
    · exact hunsigned
  · rw [toList_natText, renderNumber, natOf_toDigits]
    simp only [hn, and_self, if_true]
    exact (Nat.toString_eq_ofList_toDigits).symm

variable {r : List Char}

theorem readString_escaped {cs : List Char} {fuel : Nat} (h : cs.length ≤ fuel) :
    readString fuel (cs.flatMap (fun c => (escapeChar c).toList) ++ '"' :: r) = some (cs, r) := by
  induction cs generalizing fuel with
  | nil =>
    cases fuel <;> rfl
  | cons c cs ih =>
    cases fuel with
    | zero => simp at h
    | succ fuel =>
      have hread := readChar_escapeChar c (cs.flatMap (fun c => (escapeChar c).toList) ++ '"' :: r)
      rw [List.flatMap_cons, List.append_assoc]
      unfold readString
      split
      · next rest hquote =>
        rw [hquote] at hread
        obtain ⟨rfl, -⟩ := Prod.mk.inj (Option.some.inj hread)
        exact absurd (List.cons.inj hquote).1 (by decide)
      · next heq _ => cases heq
      · next fuel' cs' heq _ =>
        cases heq
        rw [hread, Option.bind_some]
        show (readString fuel _).map _ = _
        rw [ih (by simpa using h)]
        rfl

theorem length_le_escaped (cs : List Char) :
    cs.length ≤ (cs.flatMap fun c => (escapeChar c).toList).length := by
  induction cs with
  | nil => exact Nat.zero_le _
  | cons c cs ih =>
    have hread := readChar_escapeChar c []
    cases hl : (escapeChar c).toList with
    | nil =>
      rw [hl] at hread
      cases hread
    | cons d ds =>
      rw [List.flatMap_cons, hl, List.length_append, List.length_cons, List.length_cons]
      omega

theorem readString_quote (s : String) (r : List Char) : ∃ rest, (quote s).toList ++ r = '"' :: rest
    ∧ readString rest.length rest = some (s.toList, r) := by
  refine ⟨s.toList.flatMap (fun c => (escapeChar c).toList) ++ '"' :: r, ?_, ?_⟩
  · rw [toList_quote, List.cons_append, List.append_assoc]
    rfl
  apply readString_escaped
  rw [List.length_append]
  have hlen := length_le_escaped s.toList
  omega

variable {c : Char}

theorem kindOfChar_of_isSpace (h : isSpace c = true) : kindOfChar c = 6 := by
  simp only [isSpace, Bool.or_eq_true, beq_iff_eq] at h
  rcases h with ((rfl | rfl) | rfl) | rfl
  · decide
  · decide
  · decide
  · decide

theorem skipSpace_of_kind {cs : List Char} {k : Nat} (h : cs.head?.map kindOfChar = some k)
    (hk : k < 6) : skipSpace cs = cs := by
  cases cs with
  | nil => rfl
  | cons c cs =>
    rw [skipSpace, List.dropWhile_cons_of_neg]
    intro hspace
    rw [List.head?_cons, Option.map_some, kindOfChar_of_isSpace hspace, Option.some.injEq] at h
    omega

theorem kind_lt (v : Json) : v.kind < 6 := by
  cases v with
  | _ => simp [kind]

theorem skipSpace_stringify (h : v.WellFormed) (r : List Char) :
    skipSpace ((stringify v).toList ++ r) = (stringify v).toList ++ r :=
  skipSpace_of_kind (h.kind_eq r) v.kind_lt

theorem readNumber_parsed {text : String} (hchars : isNumberText text = true)
    (htoken : isNumberToken text.toList = true)
    (hrender : renderNumber render text.toList = text) (hr : StartsIn isClose r) :
    readNumber render (text.toList ++ r) = some (.num text, r) := by
  have hinside : ∀ c ∈ text.toList, isNumberChar c = true := by
    rw [isNumberText, Bool.and_eq_true] at hchars
    exact List.all_eq_true.1 hchars.1
  have hout : r.takeWhile isNumberChar = [] ∧ r.dropWhile isNumberChar = r := by
    cases r with
    | nil => exact ⟨rfl, rfl⟩
    | cons c r =>
      have hc : ¬ isNumberChar c = true := by
        rcases hr c rfl with rfl | rfl | rfl
        · decide
        · decide
        · decide
      exact ⟨List.takeWhile_cons_of_neg hc, List.dropWhile_cons_of_neg hc⟩
  have htake : (text.toList ++ r).takeWhile isNumberChar = text.toList := by
    rw [List.takeWhile_append_of_pos hinside, hout.1, List.append_nil]
  have hdrop : (text.toList ++ r).dropWhile isNumberChar = r := by
    rw [List.dropWhile_append_of_pos hinside, hout.2]
  rw [readNumber, htake, hdrop, if_pos htoken, hrender]

theorem startsIn_cons {marks : Char → Prop} (h : marks c) (r : List Char) :
    StartsIn marks (c :: r) := by
  intro x hx
  rw [List.head?_cons, Option.mem_some_iff] at hx
  exact hx ▸ h

theorem skipSpace_close (h : isClose c ∨ c = ':' ∨ c = '"') (r : List Char) :
    skipSpace (c :: r) = c :: r := by
  refine List.dropWhile_cons_of_neg ?_
  rcases h with (rfl | rfl | rfl) | rfl | rfl
  · decide
  · decide
  · decide
  · decide
  · decide

/-- The text `v` has, followed by what may follow a value, is read with this
much fuel. -/
def Reads (render : List Char → String) (v : Json) : Prop :=
  ∀ (fuel : Nat) (r : List Char), 2 * (stringify v).toList.length ≤ fuel → StartsIn isClose r →
    readValue render fuel ((stringify v).toList ++ r) = some (v, r)

theorem readItems_intercalate {item : Json} {items : List Json} (fuel : Nat)
    (h : ∀ v ∈ item :: items, Reads render v)
    (hfuel : 1 + 2 * ([','].intercalate ((item :: items).map fun v => (stringify v).toList)).length
      ≤ fuel) : readItems render fuel
        ([','].intercalate ((item :: items).map fun v => (stringify v).toList) ++ ']' :: r)
      = some (item :: items, r) := by
  induction items generalizing item fuel with
  | nil =>
    cases fuel with
    | zero => omega
    | succ fuel =>
      have hitem := h item (List.mem_cons_self ..) fuel (']' :: r)
        (by simp [List.intercalate] at hfuel; omega)
        (startsIn_cons (.inr (.inl rfl)) r)
      rw [List.map_cons, List.map_nil, List.intercalate_singleton, readItems, hitem,
        Option.bind_some]
      simp only [skipSpace_close (.inl (.inr (.inl rfl)))]
  | cons next items ih =>
    cases fuel with
    | zero => omega
    | succ fuel =>
      rw [List.map_cons, List.map_cons, List.intercalate_cons_cons] at hfuel ⊢
      simp only [List.length_append, List.length_singleton] at hfuel
      have hitem := h item (List.mem_cons_self ..) fuel
        (',' :: ([','].intercalate ((next :: items).map fun v => (stringify v).toList)
          ++ ']' :: r))
        (by omega) (startsIn_cons (.inl rfl) _)
      have hrest := @ih next fuel (fun v hv => h v (List.mem_cons_of_mem _ hv)) (by rw [List.map_cons]; omega)
      rw [List.map_cons] at hitem hrest
      rw [List.append_assoc, List.append_assoc, List.singleton_append, readItems, hitem,
        Option.bind_some]
      simp only [skipSpace_close (.inl (.inl rfl))]
      rw [hrest]
      rfl

theorem readFields_intercalate {field : String × Json} {fields : List (String × Json)}
    (fuel : Nat) (h : ∀ f ∈ field :: fields, Reads render f.2)
    (hfuel : 1 + 2 * ([','].intercalate ((field :: fields).map fieldText)).length ≤ fuel) :
    readFields render fuel ([','].intercalate ((field :: fields).map fieldText) ++ '\x7d' :: r)
    = some (field :: fields, r) := by
  have hone : ∀ (f : String × Json) (fuel : Nat) (rest : List Char), Reads render f.2 →
      2 * (fieldText f).length ≤ fuel → StartsIn isClose rest →
      readFields render (fuel + 1) (fieldText f ++ rest) = match skipSpace rest with
          | '\x7d' :: rest => some ([f], rest)
          | ',' :: rest => (readFields render fuel rest).map fun (fields, rest) => (f :: fields, rest)
          | _ => none := by
    intro f fuel rest hf hlen hrest
    obtain ⟨body, hbody, hread⟩ :=
      readString_quote f.1 (':' :: ((stringify f.2).toList ++ rest))
    have htext : fieldText f ++ rest = '"' :: body := by
      rw [fieldText, List.append_assoc, List.cons_append, hbody]
    rw [fieldText, List.length_append, List.length_cons] at hlen
    rw [htext, readFields, skipSpace_close (.inr (.inr rfl))]
    simp only [hread, Option.bind_some, skipSpace_close (.inr (.inl rfl))]
    rw [hf fuel rest (by omega) hrest]
    simp only [Option.bind_some, String.ofList_toList]
  induction fields generalizing field fuel with
  | nil =>
    cases fuel with
    | zero => omega
    | succ fuel =>
      rw [List.map_cons, List.map_nil, List.intercalate_singleton] at hfuel ⊢
      rw [hone field fuel _ (h field (List.mem_cons_self ..)) (by omega)
        (startsIn_cons (.inr (.inr rfl)) r), skipSpace_close (.inl (.inr (.inr rfl)))]
      rfl
  | cons next fields ih =>
    cases fuel with
    | zero => omega
    | succ fuel =>
      rw [List.map_cons, List.map_cons, List.intercalate_cons_cons] at hfuel ⊢
      simp only [List.length_append, List.length_singleton] at hfuel
      have hrest := @ih next fuel (fun f hf => h f (List.mem_cons_of_mem _ hf)) (by rw [List.map_cons]; omega)
      rw [List.map_cons] at hrest
      rw [List.append_assoc, List.append_assoc, List.singleton_append,
        hone field fuel _ (h field (List.mem_cons_self ..)) (by omega)
          (startsIn_cons (.inl rfl) _), skipSpace_close (.inl (.inl rfl))]
      simp only [hrest, Option.map_some]

theorem intercalate_starts {α : Type} (enc : α → List Char) (a : α) (as : List α) (r : List Char) :
    ∃ rest, [','].intercalate ((a :: as).map enc) ++ r = enc a ++ rest := by
  cases as with
  | nil => exact ⟨r, by rw [List.map_cons, List.map_nil, List.intercalate_singleton]⟩
  | cons b bs =>
    refine ⟨',' :: ([','].intercalate ((b :: bs).map enc) ++ r), ?_⟩
    rw [List.map_cons, List.map_cons, List.intercalate_cons_cons, List.append_assoc,
      List.append_assoc]
    rfl

theorem foldl_setField {done fields : List (String × Json)}
    (h : ((done ++ fields).map Prod.fst).Nodup) : fields.foldl setField done = done ++ fields := by
  induction fields generalizing done with
  | nil => exact (List.append_nil done).symm
  | cons field fields ih =>
    have hfresh : setField done field = done ++ [field] := by
      rw [setField, if_neg]
      intro hany
      obtain ⟨f, hf, hkey⟩ := List.any_eq_true.1 hany
      rw [List.map_append, List.map_cons, List.nodup_append] at h
      exact h.2.2 f.1 (List.mem_map_of_mem hf) field.1 (List.mem_cons_self ..) (beq_iff_eq.1 hkey)
    rw [List.foldl_cons, hfresh, ih (by rwa [List.append_assoc, List.singleton_append]),
      List.append_assoc, List.singleton_append]

theorem Parsed.reads (h : Parsed render v) : Reads render v := by
  induction h with
  | null =>
    intro fuel r hfuel hr
    cases fuel with
    | zero => simp [stringify] at hfuel
    | succ fuel => rfl
  | bool b =>
    intro fuel r hfuel hr
    cases fuel with
    | zero => cases b <;> simp [stringify] at hfuel
    | succ fuel => cases b <;> rfl
  | @num text hchars htoken hrender =>
    intro fuel r hfuel hr
    have hkind := (WellFormed.num hchars).kind_eq r
    have hskip := skipSpace_stringify (WellFormed.num hchars) r
    have hread := readNumber_parsed hchars htoken hrender hr
    cases fuel with
    | zero =>
      have hempty : (stringify (.num text)).toList = [] := by
        rw [← List.length_eq_zero_iff]
        omega
      rw [stringify] at hempty
      rw [isNumberText, hempty] at hchars
      cases hchars
    | succ fuel =>
      have hne : ∀ {c : Char} {cs : List Char}, kindOfChar c ≠ 2 →
          (stringify (.num text)).toList ++ r ≠ c :: cs := by
        intro c cs hc heq
        rw [heq] at hkind
        exact hc (Option.some.inj hkind)
      rw [readValue, hskip]
      split
      · next heq => exact absurd heq (hne (by decide))
      · next heq => exact absurd heq (hne (by decide))
      · next heq => exact absurd heq (hne (by decide))
      · next heq => exact absurd heq (hne (by decide))
      · next heq => exact absurd heq (hne (by decide))
      · next heq => exact absurd heq (hne (by decide))
      · exact hread
  | str s =>
    intro fuel r hfuel hr
    obtain ⟨body, hbody, hread⟩ := readString_quote s r
    cases fuel with
    | zero =>
      rw [stringify, toList_quote] at hfuel
      simp at hfuel
    | succ fuel =>
      rw [stringify, hbody, readValue, skipSpace_close (.inr (.inr rfl))]
      simp only [hread, Option.map_some, String.ofList_toList]
  | @arr items hitems ih =>
    intro fuel r hfuel hr
    rw [toList_stringify_arr] at hfuel ⊢
    simp only [List.length_cons, List.length_append, List.length_nil] at hfuel
    cases fuel with
    | zero => omega
    | succ fuel =>
      have hopen : ∀ cs, skipSpace ('[' :: cs) = '[' :: cs :=
        fun cs => List.dropWhile_cons_of_neg (by decide)
      rw [List.cons_append, readValue, hopen, List.append_assoc, List.singleton_append]
      cases items with
      | nil => rfl
      | cons item items =>
        have hread := readItems_intercalate fuel ih (r := r) (by omega)
        obtain ⟨rest, hrest⟩ := intercalate_starts (fun v => (stringify v).toList) item items
          (']' :: r)
        have hfirst := (hitems item (List.mem_cons_self ..)).wellFormed
        have hkind := hfirst.kind_eq rest
        rw [← hrest] at hkind
        simp only [skipSpace_of_kind hkind item.kind_lt]
        split
        · next heq =>
          rw [heq] at hkind
          exact absurd (Option.some.inj hkind).symm (Nat.ne_of_lt item.kind_lt)
        · rw [hread]
          rfl
  | @obj fields hkeys horder hfields ih =>
    intro fuel r hfuel hr
    rw [toList_stringify_obj] at hfuel ⊢
    simp only [List.length_cons, List.length_append, List.length_nil] at hfuel
    cases fuel with
    | zero => omega
    | succ fuel =>
      have hopen : ∀ cs, skipSpace ('\x7b' :: cs) = '\x7b' :: cs :=
        fun cs => List.dropWhile_cons_of_neg (by decide)
      rw [List.cons_append, readValue, hopen, List.append_assoc, List.singleton_append]
      cases fields with
      | nil => rfl
      | cons field fields =>
        have hread := readFields_intercalate fuel ih (r := r) (by omega)
        obtain ⟨rest, hrest⟩ := intercalate_starts fieldText field fields ('\x7d' :: r)
        obtain ⟨body, hbody, -⟩ := readString_quote field.1
          (':' :: ((stringify field.2).toList ++ rest))
        have htext : [','].intercalate ((field :: fields).map fieldText) ++ '\x7d' :: r
            = '"' :: body := by
          rw [hrest, fieldText, List.append_assoc, List.cons_append, hbody]
        rw [htext] at hread ⊢
        simp only [skipSpace_close (.inr (.inr rfl))]
        split
        · next heq => exact absurd (List.cons.inj heq).1 (by decide)
        · rw [hread, Option.map_some]
          rw [foldl_setField (by rwa [List.nil_append]), List.nil_append, horder]

theorem parse_stringify (h : Parsed render v) : parse render (stringify v).toList = some v := by
  have hread := h.reads (2 * (stringify v).toList.length) [] (Nat.le_refl _)
    (fun c hc => nomatch hc)
  rw [List.append_nil] at hread
  rw [parse, hread]
  rfl

-- ==== control characters

/-- Not a control character, so no line break. -/
def isPrintable (c : Char) : Prop :=
  32 ≤ c.toNat

instance : DecidablePred isPrintable :=
  fun c => Nat.decLe 32 c.toNat

instance (cs : List Char) : Decidable (∀ c ∈ cs, isPrintable c) :=
  List.decidableBAll _ _

theorem printable_escapeChar (c : Char) : ∀ d ∈ (escapeChar c).toList, isPrintable d := by
  by_cases hcontrol : c.toNat < 32
  · have hall : ∀ n < 32, ∀ d ∈ (escapeChar (Char.ofNat n)).toList, isPrintable d := by
      decide
    have hc := hall c.toNat hcontrol
    rwa [Char.ofNat_toNat] at hc
  · by_cases hquote : c = '"'
    · subst hquote
      decide
    by_cases hslash : c = '\\'
    · subst hslash
      decide
    have hne : ∀ n < 32, (c.toNat == n) = false := by
      intro n hn
      exact beq_false_of_ne (by omega)
    intro d hd
    simp only [escapeChar, beq_false_of_ne hquote, beq_false_of_ne hslash, hne 8 (by omega),
      hne 9 (by omega), hne 10 (by omega), hne 12 (by omega), hne 13 (by omega), hcontrol,
      Bool.false_eq_true, if_false, String.toList_singleton, List.mem_singleton] at hd
    rw [hd]
    exact Nat.not_lt.1 hcontrol

theorem printable_quote (s : String) : ∀ c ∈ (quote s).toList, isPrintable c := by
  rw [toList_quote]
  intro c hc
  rcases List.mem_cons.1 hc with rfl | hc
  · decide
  rcases List.mem_append.1 hc with hc | hc
  · obtain ⟨d, -, hc⟩ := List.mem_flatMap.1 hc
    exact printable_escapeChar d c hc
  · rw [List.mem_singleton.1 hc]
    decide

theorem printable_number (h : isNumberChar c = true) : isPrintable c := by
  by_cases hdigit : c.isDigit = true
  · rw [Char.isDigit, Bool.and_eq_true, decide_eq_true_eq] at hdigit
    have hlow := UInt32.le_iff_toNat_le.1 hdigit.1
    have hzero : '0'.val.toNat = 48 := rfl
    show 32 ≤ c.val.toNat
    omega
  · simp only [isNumberChar, Bool.or_eq_true, beq_iff_eq] at h
    rcases h with ((((h | rfl) | rfl) | rfl) | rfl) | rfl
    · exact absurd h hdigit
    all_goals decide

theorem mem_intercalate {α : Type} (enc : α → List Char) (as : List α)
    (h : c ∈ [','].intercalate (as.map enc)) : c = ',' ∨ ∃ a ∈ as, c ∈ enc a := by
  induction as with
  | nil => cases h
  | cons a as ih =>
    cases as with
    | nil =>
      rw [List.map_cons, List.map_nil, List.intercalate_singleton] at h
      exact .inr ⟨a, List.mem_cons_self .., h⟩
    | cons b bs =>
      rw [List.map_cons, List.map_cons, List.intercalate_cons_cons] at h
      rcases List.mem_append.1 h with h | h
      · rcases List.mem_append.1 h with h | h
        · exact .inr ⟨a, List.mem_cons_self .., h⟩
        · exact .inl (List.mem_singleton.1 h)
      · rcases ih h with h | ⟨x, hx, h⟩
        · exact .inl h
        · exact .inr ⟨x, List.mem_cons_of_mem _ hx, h⟩

theorem WellFormed.printable (h : v.WellFormed) : ∀ c ∈ (stringify v).toList, isPrintable c := by
  have hcomma : isPrintable ',' := by decide
  have hbracket : ∀ {x y c : Char} {cs : List Char}, isPrintable x → isPrintable y →
      (∀ c ∈ cs, isPrintable c) → c ∈ x :: (cs ++ [y]) → isPrintable c := by
    intro x y c cs hx hy hcs hc
    rcases List.mem_cons.1 hc with rfl | hc
    · exact hx
    rcases List.mem_append.1 hc with hc | hc
    · exact hcs c hc
    · rw [List.mem_singleton.1 hc]
      exact hy
  induction h with
  | null =>
    decide
  | bool b =>
    cases b with
    | _ => decide
  | num htext =>
    intro c hc
    rw [isNumberText, Bool.and_eq_true] at htext
    exact printable_number (List.all_eq_true.1 htext.1 c hc)
  | str s => exact printable_quote s
  | arr _ ih =>
    intro c hc
    rw [toList_stringify_arr] at hc
    refine hbracket (by decide) (by decide) ?_ hc
    intro d hd
    rcases mem_intercalate _ _ hd with rfl | ⟨item, hitem, hd⟩
    · exact hcomma
    · exact ih item hitem d hd
  | obj _ _ ih =>
    intro c hc
    rw [toList_stringify_obj] at hc
    refine hbracket (by decide) (by decide) ?_ hc
    intro d hd
    rcases mem_intercalate _ _ hd with rfl | ⟨field, hfield, hd⟩
    · exact hcomma
    · rw [fieldText] at hd
      rcases List.mem_append.1 hd with hd | hd
      · exact printable_quote _ d hd
      rcases List.mem_cons.1 hd with rfl | hd
      · decide
      · exact ih field hfield d hd

end OperatorRuntime.Json
