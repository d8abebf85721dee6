/-
What `decodeXml` makes of an escaped text. The text is written from tokens,
characters that stand for themselves and references, and each replacement
decodes one kind of reference. An ampersand that one replacement has
written stands for itself from then on; where the characters after it
complete the pattern of a later replacement, that one takes them for a
reference. The exact condition (`Recoverable`) is that this happens
nowhere.
-/
import Mathlib.Data.List.TakeWhile
import OperatorRuntime.Document.DocumentData

namespace OperatorRuntime.Document

open Lib

-- ===== tokens

/-- A reference: it stands for one character. -/
inductive Reference
  | entity (e : Entity)
  | decimal (c : Char) (digits : List Char)
      (h : digits ≠ [] ∧ (∀ d ∈ digits, isDecimal d = true) ∧ number 10 digits = c.toNat)
  | hex (c marker : Char) (digits : List Char) (hmarker : marker = 'x' ∨ marker = 'X')
      (h : digits ≠ [] ∧ (∀ d ∈ digits, isHexadecimal d = true) ∧ number 16 digits = c.toNat)

def Reference.char : Reference → Char
  | .entity e => e.char
  | .decimal c _ _ => c
  | .hex c _ _ _ _ => c

/-- A reference after its ampersand. -/
def Reference.body : Reference → List Char
  | .entity e => e.name
  | .decimal _ digits _ => '#' :: (digits ++ [';'])
  | .hex _ marker digits _ _ => '#' :: marker :: (digits ++ [';'])

inductive Token
  | plain (c : Char)
  | reference (r : Reference)

def Token.char : Token → Char
  | .plain c => c
  | .reference r => r.char

def Token.write : Token → List Char
  | .plain c => [c]
  | .reference r => '&' :: r.body

/-- A text as it is escaped: what is written literally is neither an
ampersand nor a less-than sign. -/
structure Escaped where
  tokens : List Token
  literal : ∀ c, .plain c ∈ tokens → c ≠ '&' ∧ c ≠ '<'

def Escaped.text (escaped : Escaped) : List Char :=
  escaped.tokens.map Token.char

def Escaped.written (escaped : Escaped) : List Char :=
  escaped.tokens.flatMap Token.write

-- ===== stages

/-- The replacements of `decodeXml`. -/
inductive Stage
  | entity (e : Entity)
  | decimal
  | hex
deriving DecidableEq

def Stage.find : Stage → Pattern Char OperatorError
  | .entity e => named e
  | .decimal => decimalReference
  | .hex => hexReference

/-- The replacement that decodes a reference. -/
def Reference.stage : Reference → Stage
  | .entity e => .entity e
  | .decimal _ _ _ => .decimal
  | .hex _ _ _ _ _ => .hex

def stages : List Stage :=
  [.entity .lt, .entity .gt, .entity .amp, .entity .quot, .entity .apos, .decimal, .hex]

/-- What completes the pattern of a replacement after an ampersand. -/
def Stage.Tail : Stage → List Char → Prop
  | .entity e, tail => tail = e.name
  | .decimal, tail => ∃ digits, digits ≠ [] ∧ (∀ d ∈ digits, isDecimal d = true)
      ∧ tail = '#' :: (digits ++ [';'])
  | .hex, tail => ∃ marker digits, (marker = 'x' ∨ marker = 'X') ∧ digits ≠ []
      ∧ (∀ d ∈ digits, isHexadecimal d = true) ∧ tail = '#' :: marker :: (digits ++ [';'])

theorem body_tail (r : Reference) : r.stage.Tail r.body := by
  cases r with
  | entity e => rfl
  | decimal c digits h => exact ⟨digits, h.1, h.2.1, rfl⟩
  | hex c marker digits hmarker h => exact ⟨marker, digits, hmarker, h.1, h.2.1, rfl⟩

-- ===== patterns

theorem semicolon_not_hexadecimal : isHexadecimal ';' = false := by decide

variable {isDigit : Char → Bool}

theorem takeWhile_digits (hend : isDigit ';' = false) {digits : List Char}
    (hdigits : ∀ d ∈ digits, isDigit d = true) (rest : List Char) :
    (digits ++ ';' :: rest).takeWhile isDigit = digits := by
  rw [List.takeWhile_append_of_pos hdigits, List.takeWhile_cons_of_neg (by simp [hend]),
    List.append_nil]

theorem reference_found (start base : Nat) (hend : isDigit ';' = false) {digits : List Char}
    (hne : digits ≠ []) (hdigits : ∀ d ∈ digits, isDigit d = true) (rest : List Char) :
    reference start isDigit base (digits ++ ';' :: rest)
    = some (start + digits.length + 1, fromCodePoint (number base digits)) := by
  rw [reference, takeWhile_digits hend hdigits, List.drop_left, if_pos ⟨hne, rfl⟩]

theorem reference_eq_some {start base : Nat} {text : List Char} {size : Nat}
    {written : Result Char}
    (h : reference start isDigit base text = some (size, written)) :
    ∃ digits rest, digits ≠ [] ∧ (∀ d ∈ digits, isDigit d = true) ∧ text = digits ++ ';' :: rest
    ∧ size = start + digits.length + 1 := by
  rw [reference] at h
  split at h
  · next hfound =>
    obtain ⟨hne, hsemicolon⟩ := hfound
    simp only [Option.some.injEq, Prod.mk.injEq] at h
    obtain ⟨rfl, -⟩ := h
    refine ⟨text.takeWhile isDigit, (text.drop (text.takeWhile isDigit).length).tail, hne,
      fun d hd => List.mem_takeWhile_imp hd, ?_, rfl⟩
    cases hrest : text.drop (text.takeWhile isDigit).length with
    | nil =>
      rw [hrest] at hsemicolon
      cases hsemicolon
    | cons c rest =>
      rw [hrest] at hsemicolon
      obtain rfl := Option.some.inj hsemicolon
      rw [List.tail_cons, ← hrest]
      exact (List.prefix_iff_eq_append.1 (List.takeWhile_prefix isDigit)).symm
  · cases h

theorem isValidChar_toNat (c : Char) : c.toNat.isValidChar := c.valid

theorem fromCodePoint_toNat (c : Char) : fromCodePoint c.toNat = .ok c := by
  rw [fromCodePoint, if_pos (isValidChar_toNat c), Char.ofNat_toNat]

variable {s : Stage}

theorem find_tail {c : Char} {text : List Char} {size : Nat}
    {written : Result Char} (h : s.find (c :: text) = some (size, written)) :
    c = '&' ∧ ∃ tail rest, s.Tail tail ∧ text = tail ++ rest ∧ size = tail.length + 1 := by
  cases s with
  | entity e =>
    simp only [Stage.find] at h
    unfold named at h
    split at h
    · next rest heq =>
      obtain ⟨rfl, rfl⟩ := List.cons.inj heq
      split at h
      · next hlead =>
        obtain ⟨rest', rfl⟩ := List.isPrefixOf_iff_prefix.1 hlead
        cases h
        exact ⟨rfl, e.name, rest', rfl, rfl, rfl⟩
      · cases h
    · cases h
  | decimal =>
    simp only [Stage.find] at h
    unfold decimalReference at h
    split at h
    · next rest heq =>
      obtain ⟨rfl, rfl⟩ := List.cons.inj heq
      obtain ⟨digits, rest', hne, hdigits, rfl, rfl⟩ := reference_eq_some h
      refine ⟨rfl, '#' :: (digits ++ [';']), rest', ⟨digits, hne, hdigits, rfl⟩, by simp, ?_⟩
      simp only [List.length_cons, List.length_append, List.length_nil]
      omega
    · cases h
  | hex =>
    simp only [Stage.find] at h
    unfold hexReference at h
    split at h
    · next rest heq =>
      obtain ⟨rfl, rfl⟩ := List.cons.inj heq
      obtain ⟨digits, rest', hne, hdigits, rfl, rfl⟩ := reference_eq_some h
      refine ⟨rfl, '#' :: 'x' :: (digits ++ [';']), rest',
        ⟨'x', digits, .inl rfl, hne, hdigits, rfl⟩, by simp, ?_⟩
      simp only [List.length_cons, List.length_append, List.length_nil]
      omega
    · next rest heq =>
      obtain ⟨rfl, rfl⟩ := List.cons.inj heq
      obtain ⟨digits, rest', hne, hdigits, rfl, rfl⟩ := reference_eq_some h
      refine ⟨rfl, '#' :: 'X' :: (digits ++ [';']), rest',
        ⟨'X', digits, .inr rfl, hne, hdigits, rfl⟩, by simp, ?_⟩
      simp only [List.length_cons, List.length_append, List.length_nil]
      omega
    · cases h

theorem find_of_tail {tail : List Char} (h : s.Tail tail) (rest : List Char) :
    s.find ('&' :: (tail ++ rest)) ≠ none := by
  cases s with
  | entity e =>
    obtain rfl : tail = e.name := h
    simp [Stage.find, named, List.isPrefixOf_iff_prefix]
  | decimal =>
    obtain ⟨digits, hne, hdigits, rfl⟩ := h
    simp [Stage.find, decimalReference,
      reference_found 2 10 (by decide : isDecimal ';' = false) hne hdigits rest]
  | hex =>
    obtain ⟨marker, digits, hmarker, hne, hdigits, rfl⟩ := h
    have hfound := reference_found 3 16 semicolon_not_hexadecimal hne hdigits rest
    rcases hmarker with rfl | rfl
    · simp [Stage.find, hexReference, hfound]
    · simp [Stage.find, hexReference, hfound]

theorem find_reference (r : Reference) (rest : List Char) :
    r.stage.find ('&' :: (r.body ++ rest)) = some (r.body.length + 1, .ok r.char) := by
  cases r with
  | entity e =>
    simp [Reference.stage, Reference.body, Reference.char, Stage.find, named,
      List.isPrefixOf_iff_prefix]
  | decimal c digits h =>
    have hfound := reference_found 2 10 (by decide : isDecimal ';' = false) h.1 h.2.1 rest
    rw [h.2.2, fromCodePoint_toNat] at hfound
    have hsize : 2 + digits.length + 1 = digits.length + 1 + 1 + 1 := by omega
    simp [Reference.stage, Reference.body, Reference.char, Stage.find, decimalReference, hfound,
      hsize]
  | hex c marker digits hmarker h =>
    have hfound := reference_found 3 16 semicolon_not_hexadecimal h.1 h.2.1 rest
    rw [h.2.2, fromCodePoint_toNat] at hfound
    have hsize : 3 + digits.length + 1 = digits.length + 1 + 1 + 1 + 1 := by omega
    rcases hmarker with rfl | rfl
    · simp [Reference.stage, Reference.body, Reference.char, Stage.find, hexReference, hfound,
        hsize]
    · simp [Reference.stage, Reference.body, Reference.char, Stage.find, hexReference, hfound,
        hsize]

theorem tail_stage {s' : Stage} {tail tail' rest rest' : List Char} (h : s.Tail tail)
    (h' : s'.Tail tail') (heq : tail ++ rest = tail' ++ rest') : s = s' := by
  have hmark : ∀ {digits : List Char} {marker : Char} {r r' : List Char}, digits ≠ [] →
      (∀ d ∈ digits, isDecimal d = true) → (marker = 'x' ∨ marker = 'X') →
      digits ++ r ≠ marker :: r' := by
    intro digits marker r r' hne hdigits hmarker hsame
    cases digits with
    | nil => exact hne rfl
    | cons d digits =>
      have hd := hdigits d (List.mem_cons_self ..)
      rw [(List.cons.inj hsame).1] at hd
      rcases hmarker with rfl | rfl
      · exact absurd hd (by decide)
      · exact absurd hd (by decide)
  cases s with
  | entity e =>
    obtain rfl : tail = e.name := h
    cases s' with
    | entity e' =>
      obtain rfl : tail' = e'.name := h'
      cases e <;> cases e' <;> first | rfl | simp [Entity.name] at heq
    | decimal =>
      obtain ⟨digits, -, -, rfl⟩ := h'
      cases e <;> simp [Entity.name] at heq
    | hex =>
      obtain ⟨marker, digits, -, -, -, rfl⟩ := h'
      cases e <;> simp [Entity.name] at heq
  | decimal =>
    obtain ⟨digits, hne, hdigits, rfl⟩ := h
    cases s' with
    | entity e' =>
      obtain rfl : tail' = e'.name := h'
      cases e' <;> simp [Entity.name] at heq
    | decimal => rfl
    | hex =>
      obtain ⟨marker, digits', hmarker, -, -, rfl⟩ := h'
      simp only [List.cons_append, List.append_assoc, List.cons.injEq, true_and] at heq
      exact absurd heq (hmark hne hdigits hmarker)
  | hex =>
    obtain ⟨marker, digits, hmarker, -, -, rfl⟩ := h
    cases s' with
    | entity e' =>
      obtain rfl : tail' = e'.name := h'
      cases e' <;> simp [Entity.name] at heq
    | decimal =>
      obtain ⟨digits', hne, hdigits, rfl⟩ := h'
      simp only [List.cons_append, List.append_assoc, List.cons.injEq, true_and] at heq
      exact absurd heq.symm (hmark hne hdigits hmarker)
    | hex => rfl

theorem tail_ne_nil {tail : List Char} (h : s.Tail tail) : tail ≠ [] := by
  cases s with
  | entity e =>
    obtain rfl : tail = e.name := h
    cases e <;> decide
  | decimal =>
    obtain ⟨_, _, _, rfl⟩ := h
    exact List.cons_ne_nil _ _
  | hex =>
    obtain ⟨_, _, _, _, _, rfl⟩ := h
    exact List.cons_ne_nil _ _

theorem ampersand_notMem {tail : List Char} (h : s.Tail tail) : '&' ∉ tail := by
  cases s with
  | entity e =>
    obtain rfl : tail = e.name := h
    cases e <;> decide
  | decimal =>
    obtain ⟨digits, -, hdigits, rfl⟩ := h
    intro hin
    simp only [List.mem_cons, List.mem_append, List.not_mem_nil, or_false] at hin
    rcases hin with heq | hin | heq
    · exact absurd heq (by decide)
    · exact absurd (hdigits _ hin) (by decide)
    · exact absurd heq (by decide)
  | hex =>
    obtain ⟨marker, digits, hmarker, -, hdigits, rfl⟩ := h
    intro hin
    simp only [List.mem_cons, List.mem_append, List.not_mem_nil, or_false] at hin
    rcases hin with heq | heq | hin | heq
    · exact absurd heq (by decide)
    · rcases hmarker with rfl | rfl
      · exact absurd heq (by decide)
      · exact absurd heq (by decide)
    · exact absurd (hdigits _ hin) (by decide)
    · exact absurd heq (by decide)

theorem find_other {r : Reference} (h : s ≠ r.stage) (rest : List Char) :
    s.find ('&' :: (r.body ++ rest)) = none := by
  cases hfound : s.find ('&' :: (r.body ++ rest)) with
  | none => rfl
  | some found =>
    obtain ⟨size, written⟩ := found
    obtain ⟨-, tail, rest', htail, heq, -⟩ := find_tail hfound
    exact absurd (tail_stage htail (body_tail r) heq.symm) h

theorem plain_of_text {matched rest : List Char} {tokens : List Token} (h : '&' ∉ matched)
    (heq : tokens.flatMap Token.write = matched ++ rest) :
    ∃ left, tokens = matched.map Token.plain ++ left := by
  induction matched generalizing tokens with
  | nil => exact ⟨tokens, rfl⟩
  | cons c matched ih =>
    rw [List.mem_cons, not_or] at h
    obtain ⟨hc, hmatched⟩ := h
    cases tokens with
    | nil => cases heq
    | cons t tokens =>
      rw [List.flatMap_cons] at heq
      cases t with
      | plain d =>
        obtain ⟨rfl, htext⟩ := List.cons.inj heq
        obtain ⟨left, rfl⟩ := ih hmatched htext
        exact ⟨left, rfl⟩
      | reference r => exact absurd (List.cons.inj heq).1 hc

-- ===== passes

/-- A replacement as a pass over tokens. -/
def Stage.tokens (s : Stage) : Tokens Char OperatorError Token where
  write := Token.write
  plain := Token.plain
  decode
    | .plain _ => none
    | .reference r => if r.stage = s then some r.char else none
  find := s.find
  write_plain _ := rfl
  decode_plain _ := rfl
  decodes := by
    intro t c rest hdecode
    cases t with
    | plain d => cases hdecode
    | reference r =>
      dsimp only at hdecode
      split at hdecode
      · next hstage =>
        cases hdecode
        rw [← hstage]
        exact ⟨List.cons_ne_nil _ _, find_reference r rest⟩
      · cases hdecode
  passes := by
    intro t rest hdecode hplain start hstart hne
    cases t with
    | plain d => exact absurd rfl (hplain d)
    | reference r =>
      dsimp only at hdecode
      split at hdecode
      · cases hdecode
      · next hstage =>
        rcases List.suffix_cons_iff.1 hstart with rfl | hsuffix
        · exact find_other (fun heq => hstage heq.symm) rest
        · cases start with
          | nil => exact absurd rfl hne
          | cons c start =>
            cases hfound : s.find (c :: (start ++ rest)) with
            | none => exact hfound
            | some found =>
              obtain ⟨rfl, -⟩ := find_tail hfound
              exact absurd (hsuffix.subset (List.mem_cons_self ..))
                (ampersand_notMem (body_tail r))
  takes := by
    intro c tokens size written hfound
    obtain ⟨-, tail, rest, htail, htext, rfl⟩ := find_tail hfound
    obtain ⟨left, rfl⟩ := plain_of_text (ampersand_notMem htail) htext
    exact ⟨tail, left, tail_ne_nil htail, rfl, rfl⟩

/-- A chain of replacements. -/
def decodeAll (chain : List Stage) (text : List Char) : Result (List Char) :=
  chain.foldlM (fun text stage => replaceAll stage.find 0 text) text

theorem decodeXml_eq (text : List Char) : decodeXml text = decodeAll stages text := by
  simp [decodeXml, decodeAll, stages, Stage.find]

/-- A token once the given replacements have been made. -/
def Token.settle (done : List Stage) : Token → Token
  | .plain c => .plain c
  | .reference r => if r.stage ∈ done then .plain r.char else .reference r

theorem settle_nil (t : Token) : t.settle [] = t := by
  cases t with
  | plain c => rfl
  | reference r => rfl

theorem settle_append (done : List Stage) (s : Stage) (t : Token) :
    s.tokens.decoded (t.settle done) = t.settle (done ++ [s]) := by
  cases t with
  | plain c => rfl
  | reference r =>
    by_cases hdone : r.stage ∈ done
    · rw [Token.settle, if_pos hdone, Token.settle, if_pos (List.mem_append_left _ hdone)]
      rfl
    · rw [Token.settle, if_neg hdone, Token.settle]
      by_cases hstage : r.stage = s
      · rw [if_pos (List.mem_append_right _ (by simp [hstage]))]
        show ((if r.stage = s then some r.char else none).map Token.plain).getD _ = _
        rw [if_pos hstage]
        rfl
      · rw [if_neg (by simp [hdone, hstage])]
        show ((if r.stage = s then some r.char else none).map Token.plain).getD _ = _
        rw [if_neg hstage]
        rfl

/-- No replacement of the chain takes an ampersand that stands for itself. -/
def ClearAll (done chain : List Stage) (tokens : List Token) : Prop :=
  ∀ (before : List Stage) s after, chain = before ++ s :: after →
    s.tokens.Clear (tokens.map (Token.settle (done ++ before)))

variable {chain : List Stage}

theorem ClearAll.head {done : List Stage} {tokens : List Token}
    (h : ClearAll done (s :: chain) tokens) : s.tokens.Clear (tokens.map (Token.settle done)) := by
  have hclear := h [] s chain rfl
  rwa [List.append_nil] at hclear

theorem ClearAll.tail {done : List Stage} {tokens : List Token}
    (h : ClearAll done (s :: chain) tokens) : ClearAll (done ++ [s]) chain tokens := by
  intro before s' after heq
  have hclear := h (s :: before) s' after (by rw [heq, List.cons_append])
  rwa [List.append_assoc, List.singleton_append]

theorem map_settle (done : List Stage) (s : Stage) (tokens : List Token) :
    (tokens.map (Token.settle done)).map s.tokens.decoded
    = tokens.map (Token.settle (done ++ [s])) := by
  rw [List.map_map]
  exact List.map_congr_left fun t _ => settle_append done s t

theorem decodeAll_clear {done : List Stage} {tokens : List Token} (h : ClearAll done chain tokens) :
    decodeAll chain ((tokens.map (Token.settle done)).flatMap Token.write)
    = .ok ((tokens.map (Token.settle (done ++ chain))).flatMap Token.write) := by
  induction chain generalizing done with
  | nil =>
    rw [List.append_nil]
    rfl
  | cons s chain ih =>
    have hpass : replaceAll s.find 0 ((tokens.map (Token.settle done)).flatMap Token.write)
        = .ok (((tokens.map (Token.settle done)).map s.tokens.decoded).flatMap Token.write) :=
      Tokens.replaceAll_clear h.head
    rw [decodeAll, List.foldlM_cons, hpass, ok_bind, map_settle]
    have hrest := ih h.tail
    rw [List.append_assoc, List.singleton_append] at hrest
    exact hrest

/-- No reference is left that the given replacements decode. -/
def Decoded (done : List Stage) (tokens : List Token) : Prop :=
  ∀ r, .reference r ∈ tokens → r.stage ∉ done

variable {out : List Char}

theorem replace_shrinks {done : List Stage} {tokens : List Token} (hdone : Decoded done tokens)
    (h : replaceAll s.find 0 (tokens.flatMap Token.write) = .ok out) :
    ∃ left : List Token, out = left.flatMap Token.write ∧ left.length ≤ tokens.length
    ∧ (¬ s.tokens.Clear tokens → left.length < tokens.length) ∧ Decoded (done ++ [s]) left := by
  obtain ⟨left, hout, hle, hlt, hleft⟩ := Tokens.replaceAll_shrinks (k := s.tokens) h
  refine ⟨left, hout, hle, hlt, ?_⟩
  intro r hin
  rcases hleft _ hin with ⟨c, hplain⟩ | ⟨hold, hnone⟩
  · cases hplain
  · have hstage : r.stage ≠ s := by
      intro heq
      have hsome : s.tokens.decode (.reference r) = some r.char := if_pos heq
      rw [hsome] at hnone
      cases hnone
    simp [hdone r hold, hstage]

theorem decodeAll_shrinks {done : List Stage} {tokens : List Token}
    (hdone : Decoded done tokens) (h : decodeAll chain (tokens.flatMap Token.write) = .ok out) :
    ∃ left : List Token, out = left.flatMap Token.write ∧ left.length ≤ tokens.length
    ∧ Decoded (done ++ chain) left := by
  induction chain generalizing done tokens with
  | nil =>
    cases h
    rw [List.append_nil]
    exact ⟨tokens, rfl, Nat.le_refl _, hdone⟩
  | cons s chain ih =>
    rw [decodeAll, List.foldlM_cons, bind_eq_ok] at h
    obtain ⟨between, hpass, hrest⟩ := h
    obtain ⟨tokens₁, rfl, hle₁, -, hdone₁⟩ := replace_shrinks hdone hpass
    obtain ⟨tokens₂, hout, hle₂, hdone₂⟩ := ih hdone₁ hrest
    rw [List.append_assoc, List.singleton_append] at hdone₂
    exact ⟨tokens₂, hout, hle₂.trans hle₁, hdone₂⟩

theorem decoded_settle (done : List Stage) (tokens : List Token) :
    Decoded done (tokens.map (Token.settle done)) := by
  intro r hin
  obtain ⟨t, -, heq⟩ := List.mem_map.1 hin
  cases t with
  | plain c => cases heq
  | reference r' =>
    rw [Token.settle] at heq
    split at heq
    · cases heq
    · next hout =>
      cases heq
      exact hout

theorem decodeAll_strict {done : List Stage} {tokens : List Token}
    (hnot : ¬ ClearAll done chain tokens)
    (h : decodeAll chain ((tokens.map (Token.settle done)).flatMap Token.write) = .ok out) :
    ∃ left : List Token, out = left.flatMap Token.write ∧ left.length < tokens.length
    ∧ Decoded (done ++ chain) left := by
  induction chain generalizing done with
  | nil => exact absurd (fun before s after heq => by simp at heq) hnot
  | cons s chain ih =>
    by_cases hclear : s.tokens.Clear (tokens.map (Token.settle done))
    · have hpass : replaceAll s.find 0 ((tokens.map (Token.settle done)).flatMap Token.write)
          = .ok (((tokens.map (Token.settle done)).map s.tokens.decoded).flatMap Token.write) :=
        Tokens.replaceAll_clear hclear
      rw [decodeAll, List.foldlM_cons, hpass, ok_bind, map_settle] at h
      have hrest : ¬ ClearAll (done ++ [s]) chain tokens := by
        intro htail
        apply hnot
        intro before s' after heq
        cases before with
        | nil =>
          obtain ⟨rfl, -⟩ := List.cons.inj heq
          rw [List.append_nil]
          exact hclear
        | cons s'' before =>
          rw [List.cons_append] at heq
          obtain ⟨rfl, hchain⟩ := List.cons.inj heq
          have hat := htail before s' after hchain
          rwa [List.append_assoc, List.singleton_append] at hat
      obtain ⟨left, hout, hlt, hdone⟩ := ih hrest h
      rw [List.append_assoc, List.singleton_append] at hdone
      exact ⟨left, hout, hlt, hdone⟩
    · rw [decodeAll, List.foldlM_cons, bind_eq_ok] at h
      obtain ⟨between, hpass, hrest⟩ := h
      obtain ⟨tokens₁, rfl, -, hlt, hdone₁⟩ := replace_shrinks (decoded_settle done tokens) hpass
      obtain ⟨tokens₂, hout, hle, hdone₂⟩ := decodeAll_shrinks hdone₁ hrest
      have hless := hlt hclear
      rw [List.length_map] at hless
      rw [List.append_assoc, List.singleton_append] at hdone₂
      exact ⟨tokens₂, hout, hle.trans_lt hless, hdone₂⟩

-- ===== results

theorem stage_mem (r : Reference) : r.stage ∈ stages := by
  cases r with
  | entity e => cases e <;> simp [Reference.stage, stages]
  | decimal c digits h => simp [Reference.stage, stages]
  | hex c marker digits hmarker h => simp [Reference.stage, stages]

theorem settle_stages (t : Token) : t.settle stages = .plain t.char := by
  cases t with
  | plain c => rfl
  | reference r => exact if_pos (stage_mem r)

/-- The characters at the start that stand for themselves, or that the
given replacements have written. -/
def run (done : List Stage) : List Token → List Char
  | [] => []
  | .plain c :: tokens => c :: run done tokens
  | .reference r :: tokens => if r.stage ∈ done then r.char :: run done tokens else []

/-- Before no replacement is there an ampersand that an earlier one has
written, with the pattern completed by characters that stand for
themselves or that earlier ones have written. -/
def Recoverable (escaped : Escaped) : Prop :=
  ∀ (done : List Stage) s later, stages = done ++ s :: later →
    ∀ (before : List Token) r after, escaped.tokens = before ++ Token.reference r :: after →
      r.char = '&' → r.stage ∈ done → ∀ tail, s.Tail tail → ¬ tail <+: run done after

theorem prefix_run_iff (done : List Stage) {tail : List Char} (h : '&' ∉ tail)
    (tokens : List Token) :
    tail <+: (tokens.map (Token.settle done)).flatMap Token.write ↔ tail <+: run done tokens := by
  induction tokens generalizing tail with
  | nil => rfl
  | cons t tokens ih =>
    have hcons : ∀ c : Char, (tail <+: c :: (tokens.map (Token.settle done)).flatMap Token.write
          ↔ tail <+: c :: run done tokens) := by
      intro c
      cases tail with
      | nil => exact iff_of_true (List.nil_prefix) (List.nil_prefix)
      | cons d tail =>
        rw [List.cons_prefix_cons, List.cons_prefix_cons]
        exact and_congr_right fun _ => ih fun hin => h (List.mem_cons_of_mem _ hin)
    cases t with
    | plain c => exact hcons c
    | reference r =>
      by_cases hdone : r.stage ∈ done
      · rw [List.map_cons, Token.settle, if_pos hdone, run, if_pos hdone]
        exact hcons r.char
      · rw [List.map_cons, Token.settle, if_neg hdone, run, if_neg hdone, List.prefix_nil]
        cases tail with
        | nil => exact iff_of_true List.nil_prefix rfl
        | cons d tail =>
          refine iff_of_false ?_ (List.cons_ne_nil _ _)
          intro hlead
          rw [List.flatMap_cons, Token.write, List.cons_append,
            List.cons_prefix_cons] at hlead
          exact h (hlead.1 ▸ List.mem_cons_self ..)

theorem find_settled_iff (done : List Stage) (s : Stage) (c : Char) (tokens : List Token) :
    s.find (c :: (tokens.map (Token.settle done)).flatMap Token.write) ≠ none
    ↔ c = '&' ∧ ∃ tail, s.Tail tail ∧ tail <+: run done tokens := by
  constructor
  · intro hfound
    obtain ⟨⟨size, written⟩, hfound⟩ := Option.ne_none_iff_exists'.1 hfound
    obtain ⟨hc, tail, rest, htail, htext, -⟩ := find_tail hfound
    exact ⟨hc, tail, htail, (prefix_run_iff done (ampersand_notMem htail) tokens).1 ⟨rest, htext.symm⟩⟩
  · rintro ⟨rfl, tail, htail, hlead⟩
    obtain ⟨rest, htext⟩ := (prefix_run_iff done (ampersand_notMem htail) tokens).2 hlead
    rw [← htext]
    exact find_of_tail htail rest

theorem clear_iff_recoverable (escaped : Escaped) :
    ClearAll [] stages escaped.tokens ↔ Recoverable escaped := by
  constructor
  · intro hclear done s later hstages before r after htokens hchar hstage tail htail hlead
    have hsettled : escaped.tokens.map (Token.settle done) = before.map (Token.settle done)
        ++ .plain r.char :: after.map (Token.settle done) := by
      rw [htokens, List.map_append, List.map_cons, Token.settle, if_pos hstage]
    have hnone := hclear done s later hstages _ _ _ hsettled
    exact (find_settled_iff done s r.char after).2 ⟨hchar, tail, htail, hlead⟩ hnone
  · intro hrecoverable done s later hstages before c after hsettled
    by_contra hfound
    obtain ⟨before', rest, htokens, -, hrest⟩ := List.map_eq_append_iff.1 hsettled
    obtain ⟨t, after', rfl, hplain, rfl⟩ := List.map_eq_cons_iff.1 hrest
    obtain ⟨rfl, tail, htail, hlead⟩ := (find_settled_iff done s c after').1 hfound
    cases t with
    | plain c =>
      obtain rfl := Token.plain.inj hplain
      have hin : Token.plain '&' ∈ escaped.tokens := by
        rw [htokens]
        exact List.mem_append_right _ (List.mem_cons_self ..)
      exact (escaped.literal _ hin).1 rfl
    | reference r =>
      rw [Token.settle] at hplain
      split at hplain
      · next hstage =>
        exact hrecoverable done s later hstages before' r after' htokens
          (Token.plain.inj hplain) hstage tail htail hlead
      · cases hplain

theorem plain_of_decoded {tokens : List Token} (h : Decoded stages tokens) :
    (tokens.flatMap Token.write).length = tokens.length := by
  induction tokens with
  | nil => rfl
  | cons t tokens ih =>
    have hrest := ih fun r hin => h r (List.mem_cons_of_mem _ hin)
    cases t with
    | plain c => rw [List.flatMap_cons, Token.write, List.singleton_append, List.length_cons, hrest,
        List.length_cons]
    | reference r => exact absurd (stage_mem r) (h r (List.mem_cons_self ..))

theorem settled_text (escaped : Escaped) :
    (escaped.tokens.map (Token.settle stages)).flatMap Token.write = escaped.text := by
  rw [Escaped.text]
  induction escaped.tokens with
  | nil => rfl
  | cons t tokens ih => rw [List.map_cons, List.flatMap_cons, settle_stages, ih]; rfl

/-- Exactly the recoverable escapings decode to their text. Where one is
not, what is decoded is shorter. -/
theorem decodeXml_written_iff (escaped : Escaped) :
    decodeXml escaped.written = .ok escaped.text ↔ Recoverable escaped := by
  have hstart : escaped.tokens.map (Token.settle []) = escaped.tokens := by
    rw [List.map_congr_left fun t _ => settle_nil t, List.map_id']
  have hwritten : escaped.written = (escaped.tokens.map (Token.settle [])).flatMap Token.write := by
    rw [hstart]
    rfl
  rw [decodeXml_eq, hwritten, ← clear_iff_recoverable]
  constructor
  · intro hdecode
    by_contra hnot
    obtain ⟨left, hout, hlt, hdecoded⟩ := decodeAll_strict hnot hdecode
    have hlength := congrArg List.length hout
    rw [Escaped.text, List.length_map, plain_of_decoded hdecoded] at hlength
    omega
  · intro hclear
    rw [decodeAll_clear hclear, List.nil_append, settled_text]

/-- `&quot;` escaped as `&amp;quot;`. -/
def spelledQuote : Escaped where
  tokens := .reference (.entity .amp) :: "quot;".toList.map Token.plain
  literal := by
    intro c hin
    simp only [List.mem_cons, reduceCtorEq, false_or, List.mem_map, Token.plain.injEq] at hin
    obtain ⟨d, hd, rfl⟩ := hin
    have hall : ("quot;".toList.all fun d => d ≠ '&' ∧ d ≠ '<') = true := by decide
    simpa using List.all_eq_true.1 hall d hd

/-- The escaped spelling of an entity decodes to what the entity stands
for. -/
theorem spelled_quote_lost :
    spelledQuote.text = "&quot;".toList ∧ spelledQuote.written = "&amp;quot;".toList
    ∧ decodeXml spelledQuote.written = .ok "\"".toList
    ∧ ¬ ∀ escaped : Escaped, decodeXml escaped.written = .ok escaped.text := by
  have hdecode : decodeXml spelledQuote.written = .ok "\"".toList := by decide
  refine ⟨by decide, by decide, hdecode, ?_⟩
  intro hall
  have htext := hall spelledQuote
  rw [hdecode] at htext
  exact absurd (Except.ok.inj htext) (by decide)

end OperatorRuntime.Document
