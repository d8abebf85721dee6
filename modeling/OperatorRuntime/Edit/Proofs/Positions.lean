/-
Positions are exact. The position model of the protocol is stated by itself:
the line of an offset is the number of line terminators that end at or before
it, its column counts from the last of them (`positionOf`). The scanner and the
backwards loop of the source are then one partial inverse of it, defined
exactly off the insides of terminators and surrogate pairs.
-/
import OperatorRuntime.Edit.LspWorkspaceEdit

namespace OperatorRuntime.Edit

-- === the positions of the protocol

/-- A line terminator ends with the unit at `index`: a line feed, or a carriage
return that no line feed follows. -/
def terminates (text : Units) (index : Nat) : Prop :=
  text[index]? = some lineFeed
    ∨ text[index]? = some carriageReturn ∧ text[index + 1]? ≠ some lineFeed

instance (text : Units) (index : Nat) : Decidable (terminates text index) :=
  inferInstanceAs (Decidable (_ ∨ _))

/-- How many terminators end at or before an offset. -/
def lineOf (text : Units) : Nat → Nat
  | 0 => 0
  | offset + 1 => if terminates text offset then lineOf text offset + 1 else lineOf text offset

/-- Where the last of them ends. -/
def lineStartOf (text : Units) : Nat → Nat
  | 0 => 0
  | offset + 1 => if terminates text offset then offset + 1 else lineStartOf text offset

def positionOf (text : Units) (offset : Nat) : LspPosition :=
  { line := lineOf text offset, character := offset - lineStartOf text offset }

/-- Between a carriage return and its line feed. -/
def splitsTerminator (text : Units) (offset : Nat) : Prop :=
  0 < offset ∧ text[offset - 1]? = some carriageReturn ∧ text[offset]? = some lineFeed

/-- An offset a position may name. -/
structure Boundary (text : Units) (offset : Nat) : Prop where
  inside : offset ≤ text.length
  terminator : ¬ splitsTerminator text offset
  surrogates : splitsSurrogatePair text offset = false

/-- The offset lies inside a pair: a high surrogate before it, a low one after. -/
theorem splitsSurrogatePair_iff {text : Units} {offset : Nat} : splitsSurrogatePair text offset = true
    ↔ ∃ before high low after, text = before ++ high :: low :: after ∧ offset = before.length + 1
      ∧ Units.isHighSurrogate high = true ∧ Units.isLowSurrogate low = true := by
  rw [splitsSurrogatePair]
  constructor
  · intro h
    split at h
    · cases h
    · next hinside =>
      push Not at hinside
      rw [Bool.and_eq_true, Option.any_eq_true, Option.any_eq_true] at h
      obtain ⟨⟨high, hhigh, hishigh⟩, low, hlow, hislow⟩ := h
      rw [List.getElem?_eq_some_iff] at hhigh hlow
      obtain ⟨hlt, rfl⟩ := hhigh
      obtain ⟨hlt', rfl⟩ := hlow
      refine ⟨text.take (offset - 1), text[offset - 1], text[offset], text.drop (offset + 1), ?_, ?_,
        hishigh, hislow⟩
      · rw [← List.drop_eq_getElem_cons hlt']
        conv_lhs => rw [← List.take_append_drop (offset - 1) text, List.drop_eq_getElem_cons hlt]
        rw [Nat.sub_add_cancel (by omega)]
      · rw [List.length_take]
        omega
  · rintro ⟨before, high, low, after, rfl, rfl, hhigh, hlow⟩
    rw [if_neg (by simp)]
    simp [hhigh, hlow]

section
variable {text : Units} {a b i k o s : Nat}

theorem endsLine_of_terminates (h : terminates text i) : endsLine text i :=
  h.imp_right And.left

theorem lt_length_of_endsLine (h : endsLine text i) : i < text.length := by
  rcases h with h | h
  · exact (List.getElem?_eq_some_iff.1 h).1
  · exact (List.getElem?_eq_some_iff.1 h).1

theorem lineOf_succ_le : lineOf text a ≤ lineOf text (a + 1) := by
  rw [lineOf]
  split
  · exact Nat.le_succ _
  · exact Nat.le_refl _

theorem lineOf_mono (h : a ≤ b) : lineOf text a ≤ lineOf text b := by
  induction b, h using Nat.le_induction with
  | base => exact Nat.le_refl _
  | succ b _ ih => exact Nat.le_trans ih lineOf_succ_le

theorem lineOf_lt (h : terminates text i) (ha : a ≤ i) (hb : i < b) :
    lineOf text a < lineOf text b := by
  have hle : lineOf text a ≤ lineOf text i := lineOf_mono ha
  have hnext : lineOf text (i + 1) = lineOf text i + 1 := by rw [lineOf, if_pos h]
  have hend : lineOf text (i + 1) ≤ lineOf text b := lineOf_mono hb
  omega

theorem lineStartOf_le : lineStartOf text o ≤ o := by
  induction o with
  | zero => exact Nat.le_refl _
  | succ o ih =>
    rw [lineStartOf]
    split
    · exact Nat.le_refl _
    · omega

theorem lineStartOf_self : lineStartOf text (i + 1) = i + 1 ↔ terminates text i := by
  rw [lineStartOf]
  split
  · next hends => exact ⟨fun _ => hends, fun _ => rfl⟩
  · next hnot =>
    refine ⟨fun heq => ?_, fun hends => absurd hends hnot⟩
    have hle : lineStartOf text i ≤ i := lineStartOf_le
    omega

theorem lineStartOf_idem : lineStartOf text (lineStartOf text o) = lineStartOf text o := by
  induction o with
  | zero => rfl
  | succ o ih =>
    by_cases hends : terminates text o
    · rw [lineStartOf_self.2 hends, lineStartOf_self.2 hends]
    · rw [lineStartOf, if_neg hends, ih]

theorem lineOf_lineStartOf : lineOf text (lineStartOf text o) = lineOf text o := by
  induction o with
  | zero => rfl
  | succ o ih =>
    rw [lineStartOf]
    split
    · rfl
    · next hnot => rw [ih, lineOf, if_neg hnot]

theorem same_line (hle : s ≤ o) (hnone : ∀ i, s ≤ i → i < o → ¬ terminates text i) :
    lineOf text o = lineOf text s ∧ lineStartOf text o = lineStartOf text s := by
  induction o, hle using Nat.le_induction with
  | base => exact ⟨rfl, rfl⟩
  | succ o hle ih =>
    have hnot := hnone o hle (Nat.lt_succ_self o)
    rw [lineOf, lineStartOf, if_neg hnot, if_neg hnot]
    exact ih fun i hi hio => hnone i hi (Nat.lt_succ_of_lt hio)

theorem same_start (hle : a ≤ b) (hline : lineOf text a = lineOf text b) :
    lineStartOf text b = lineStartOf text a := by
  refine (same_line hle ?_).2
  intro i hi hib hends
  have hlt : lineOf text a < lineOf text b := lineOf_lt hends hi hib
  omega

-- ===== the scanner

/-- The starts of the lines after the one at `index`, in order. -/
def Follow (text : Units) (index : Nat) (starts : List Nat) : Prop :=
  ∀ k s, starts[k]? = some s ↔ index < s ∧ s ≤ text.length ∧ terminates text (s - 1)
    ∧ lineOf text s = lineOf text index + k + 1

theorem Follow.skip {starts : List Nat} (h : Follow text (i + 1) starts)
    (hnot : ¬ terminates text i) : Follow text i starts := by
  intro k s
  rw [h k s, lineOf, if_neg hnot]
  constructor
  · rintro ⟨hlt, hrest⟩
    exact ⟨Nat.lt_of_succ_lt hlt, hrest⟩
  · rintro ⟨hlt, hrest⟩
    refine ⟨Nat.lt_of_le_of_ne hlt ?_, hrest⟩
    rintro rfl
    exact hnot hrest.2.1

theorem Follow.start {starts : List Nat} (h : Follow text (i + 1) starts)
    (hends : terminates text i) : Follow text i ((i + 1) :: starts) := by
  have hlt := lt_length_of_endsLine (endsLine_of_terminates hends)
  have hline : lineOf text (i + 1) = lineOf text i + 1 := by rw [lineOf, if_pos hends]
  intro k s
  cases k with
  | zero =>
    rw [List.getElem?_cons_zero, Option.some.injEq]
    constructor
    · rintro rfl
      exact ⟨Nat.lt_succ_self i, hlt, hends, hline⟩
    · rintro ⟨hi, -, hterminates, hs⟩
      by_contra hne
      have hmore : lineOf text (i + 1) < lineOf text s := lineOf_lt hterminates (by omega) (by omega)
      omega
  | succ k =>
    rw [List.getElem?_cons_succ, h k s, hline]
    constructor
    · rintro ⟨hi, hs, hterminates, hk⟩
      exact ⟨by omega, hs, hterminates, by omega⟩
    · rintro ⟨hi, hs, hterminates, hk⟩
      refine ⟨Nat.lt_of_le_of_ne hi ?_, hs, hterminates, by omega⟩
      rintro rfl
      omega

theorem follow_end (h : i = text.length) : Follow text i [] := by
  intro k s
  simp only [List.getElem?_nil, reduceCtorEq, false_iff, not_and]
  omega

theorem terminates_drop {rest : Units} (h : text.drop i = rest) :
    terminates text i ↔ rest[0]? = some lineFeed
    ∨ rest[0]? = some carriageReturn ∧ rest[1]? ≠ some lineFeed := by
  rw [terminates, ← h, List.getElem?_drop, List.getElem?_drop]
  exact Iff.rfl

theorem drop_succ {code : UInt16} {rest : Units} (h : text.drop i = code :: rest) :
    text.drop (i + 1) = rest ∧ i + 1 ≤ text.length := by
  refine ⟨?_, ?_⟩
  · rw [← List.drop_drop, h]
    rfl
  · have := congrArg List.length h
    rw [List.length_drop, List.length_cons] at this
    omega

theorem follow_lineStartsFrom {rest : Units} (h : text.drop i = rest) (hi : i ≤ text.length) :
    Follow text i (lineStartsFrom i rest) := by
  have hfeed : carriageReturn ≠ lineFeed := by decide
  induction i, rest using lineStartsFrom.induct with
  | case1 i => exact follow_end (Nat.le_antisymm hi (List.drop_eq_nil_iff.1 h))
  | case2 i code hcode =>
    obtain ⟨hrest, hi⟩ := drop_succ h
    rw [lineStartsFrom, if_pos hcode]
    refine (follow_end (Nat.le_antisymm hi (List.drop_eq_nil_iff.1 hrest))).start ?_
    rw [terminates_drop h]
    rcases hcode with rfl | rfl
    · exact .inr ⟨rfl, by simp⟩
    · exact .inl rfl
  | case3 i code hcode =>
    obtain ⟨hrest, hi⟩ := drop_succ h
    rw [lineStartsFrom, if_neg hcode]
    refine (follow_end (Nat.le_antisymm hi (List.drop_eq_nil_iff.1 hrest))).skip ?_
    rw [terminates_drop h]
    rintro (hline | ⟨hreturn, -⟩)
    · exact hcode (.inr (by simpa using hline))
    · exact hcode (.inl (by simpa using hreturn))
  | case4 i code next rest hcode ih =>
    obtain ⟨rfl, rfl⟩ := hcode
    obtain ⟨hrest, -⟩ := drop_succ h
    obtain ⟨htail, hi⟩ := drop_succ hrest
    rw [lineStartsFrom, if_pos ⟨rfl, rfl⟩]
    refine ((ih htail hi).start ((terminates_drop hrest).2 (.inl rfl))).skip ?_
    rw [terminates_drop h]
    simp [hfeed]
  | case5 i code next rest hcrlf hcode ih =>
    obtain ⟨hrest, hi⟩ := drop_succ h
    rw [lineStartsFrom, if_neg hcrlf, if_pos hcode]
    refine (ih hrest hi).start ?_
    rw [terminates_drop h]
    rcases hcode with rfl | rfl
    · exact .inr ⟨rfl, by simpa using hcrlf⟩
    · exact .inl rfl
  | case6 i code next rest hcrlf hcode ih =>
    obtain ⟨hrest, hi⟩ := drop_succ h
    rw [lineStartsFrom, if_neg hcrlf, if_neg hcode]
    refine (ih hrest hi).skip ?_
    rw [terminates_drop h]
    rintro (hline | ⟨hreturn, -⟩)
    · exact hcode (.inr (by simpa using hline))
    · exact hcode (.inl (by simpa using hreturn))

theorem lineStarts_eq_some : (lineStarts text)[k]? = some s ↔
    s ≤ text.length ∧ lineOf text s = k ∧ lineStartOf text s = s := by
  have hfollow : Follow text 0 (lineStartsFrom 0 text) :=
    follow_lineStartsFrom List.drop_zero (Nat.zero_le _)
  rw [lineStarts]
  cases k with
  | zero =>
    rw [List.getElem?_cons_zero, Option.some.injEq]
    constructor
    · rintro rfl
      exact ⟨Nat.zero_le _, rfl, rfl⟩
    · rintro ⟨-, hline, hstart⟩
      cases s with
      | zero => rfl
      | succ n =>
        have hlt : lineOf text 0 < lineOf text (n + 1) :=
          lineOf_lt (lineStartOf_self.1 hstart) (Nat.zero_le n) (Nat.lt_succ_self n)
        exact absurd hline (Nat.ne_of_gt hlt)
  | succ k =>
    rw [List.getElem?_cons_succ, hfollow k s]
    cases s with
    | zero => simp [lineOf]
    | succ n =>
      rw [lineStartOf_self, Nat.add_sub_cancel, lineOf.eq_1]
      constructor
      · rintro ⟨-, hle, hends, hline⟩
        exact ⟨hle, by omega, hends⟩
      · rintro ⟨hle, hline, hends⟩
        exact ⟨Nat.succ_pos n, hle, hends, by omega⟩

theorem lineStarts_lineOf (h : o ≤ text.length) :
    (lineStarts text)[lineOf text o]? = some (lineStartOf text o) :=
  lineStarts_eq_some.2 ⟨lineStartOf_le.trans h, lineOf_lineStartOf, lineStartOf_idem⟩

-- ===== the end of a line

theorem trimEnd_spec (text : Units) (hle : s ≤ k) : s ≤ trimEnd text s k ∧ trimEnd text s k ≤ k
    ∧ (∀ i, trimEnd text s k ≤ i → i < k → endsLine text i)
    ∧ (trimEnd text s k = s ∨ ¬ endsLine text (trimEnd text s k - 1)) := by
  induction k with
  | zero =>
    obtain rfl : s = 0 := by omega
    exact ⟨Nat.le_refl _, Nat.le_refl _, fun i _ hi => absurd hi (Nat.not_lt_zero i), .inl rfl⟩
  | succ k ih =>
    rw [trimEnd]
    split
    · next hend =>
      obtain ⟨hs, hk, hall, hstop⟩ := ih (by omega)
      refine ⟨hs, by omega, ?_, hstop⟩
      intro i hi hik
      by_cases heq : i = k
      · exact heq ▸ hend.2
      · exact hall i hi (by omega)
    · next hend =>
      refine ⟨hle, Nat.le_refl _, fun i hi hik => by omega, ?_⟩
      by_cases heq : k + 1 = s
      · exact .inl heq
      · exact .inr fun hunit => hend ⟨by omega, hunit⟩

theorem next_start (hstart : (lineStarts text)[k]? = some s) :
    s ≤ (lineStarts text)[k + 1]?.getD text.length
    ∧ (lineStarts text)[k + 1]?.getD text.length ≤ text.length
    ∧ (∀ i, s ≤ i → i + 1 < (lineStarts text)[k + 1]?.getD text.length → ¬ terminates text i)
    ∧ ∀ o ≤ text.length, (lineStarts text)[k + 1]?.getD text.length < o → k < lineOf text o := by
  obtain ⟨hs, hk, -⟩ := lineStarts_eq_some.1 hstart
  cases hnext : (lineStarts text)[k + 1]? with
  | some t =>
    rw [Option.getD_some]
    obtain ⟨ht, htk, hself⟩ := lineStarts_eq_some.1 hnext
    refine ⟨?_, ht, ?_, ?_⟩
    · by_contra hlt
      have hle : lineOf text t ≤ lineOf text s := lineOf_mono (by omega)
      omega
    · intro i hi hit hends
      obtain ⟨n, rfl⟩ : ∃ n, t = n + 1 := ⟨t - 1, by omega⟩
      have hfirst : lineOf text s < lineOf text (i + 1) :=
        lineOf_lt hends hi (Nat.lt_succ_self i)
      have hsecond : lineOf text (i + 1) < lineOf text (n + 1) :=
        lineOf_lt (lineStartOf_self.1 hself) (by omega) (Nat.lt_succ_self n)
      omega
    · intro o _ hto
      have hle : lineOf text t ≤ lineOf text o := lineOf_mono hto.le
      omega
  | none =>
    rw [Option.getD_none]
    refine ⟨hs, Nat.le_refl _, ?_, fun o ho hlt => absurd hlt (Nat.not_lt.2 ho)⟩
    intro i hi hlt hends
    have hmore : lineOf text s < lineOf text (i + 1) :=
      lineOf_lt hends hi (Nat.lt_succ_self i)
    have hthere := lineStarts_eq_some.2 ⟨hlt.le, rfl, lineStartOf_self.2 hends⟩
    have hlen := (List.getElem?_eq_some_iff.1 hthere).1
    have hnone := List.getElem?_eq_none_iff.1 hnext
    omega

theorem le_trimEnd_iff (hstart : (lineStarts text)[k]? = some s) (hso : s ≤ o) :
    o ≤ trimEnd text s ((lineStarts text)[k + 1]?.getD text.length)
    ↔ o ≤ text.length ∧ ¬ splitsTerminator text o ∧ lineOf text o = k := by
  obtain ⟨-, hk, hself⟩ := lineStarts_eq_some.1 hstart
  obtain ⟨hst, htlen, hinside, hbeyond⟩ := next_start hstart
  obtain ⟨hse, het, hunits, hstop⟩ := trimEnd_spec text hst
  generalize (lineStarts text)[k + 1]?.getD text.length = t at *
  generalize trimEnd text s t = e at *
  -- a terminator that ends at or before the end of the line would end it there
  have hclean : ∀ i, s ≤ i → i < e → ¬ terminates text i := by
    intro i hi hie hends
    by_cases hlast : i + 1 = t
    · obtain rfl : e = i + 1 := by omega
      rcases hstop with heq | hnot
      · omega
      · exact hnot (endsLine_of_terminates hends)
    · exact hinside i hi (by omega) hends
  constructor
  · intro hoe
    have hline := (same_line hso fun i hi hio => hclean i hi (by omega)).1
    refine ⟨by omega, ?_, hline.trans hk⟩
    rintro ⟨hpos, hreturn, hfeed⟩
    by_cases heq : o = e
    · rcases hstop with hes | hnot
      · obtain ⟨n, rfl⟩ : ∃ n, s = n + 1 := ⟨s - 1, by omega⟩
        obtain rfl : o = n + 1 := by omega
        rcases lineStartOf_self.1 hself with hends | ⟨-, hends⟩
        · have hsame := hends.symm.trans hreturn
          exact absurd hsame (by decide)
        · exact hends hfeed
      · exact hnot (heq ▸ .inr hreturn)
    · exact hclean o hso (by omega) (.inl hfeed)
  · rintro ⟨hlen, hsplit, hline⟩
    by_contra hlt
    rw [Nat.not_le] at hlt
    have hot : o ≤ t := by
      by_contra hto
      have := hbeyond o hlen (by omega)
      omega
    obtain ⟨n, rfl⟩ : ∃ n, o = n + 1 := ⟨o - 1, by omega⟩
    have hnot : ¬ terminates text n := by
      intro hends
      have hmore : lineOf text s < lineOf text (n + 1) :=
        lineOf_lt hends (by omega) (Nat.lt_succ_self n)
      omega
    rcases hunits n (by omega) hot with hfeed | hreturn
    · exact hnot (.inl hfeed)
    · refine hsplit ⟨Nat.succ_pos n, hreturn, ?_⟩
      by_contra hfeed
      exact hnot (.inr ⟨hreturn, hfeed⟩)

theorem offsetForPosition_iff {p : LspPosition} : offsetForPosition text (lineStarts text) p = .ok o
    ↔ Boundary text o ∧ p = positionOf text o := by
  rw [offsetForPosition.eq_def]
  split
  · next hnone =>
    refine ⟨fun h => absurd h fail_ne_ok, ?_⟩
    rintro ⟨hboundary, rfl⟩
    exact absurd (hnone.symm.trans (lineStarts_lineOf hboundary.inside)) (by simp)
  · next s hstart =>
    obtain ⟨-, hline, hself⟩ := lineStarts_eq_some.1 hstart
    constructor
    · intro hok
      obtain ⟨_, hshort, hok⟩ := bind_eq_ok.1 hok
      obtain ⟨_, hsplit, hok⟩ := bind_eq_ok.1 hok
      rw [rejectIf_eq_ok, Nat.not_lt] at hshort
      rw [rejectIf_eq_ok, Bool.not_eq_true] at hsplit
      cases hok
      obtain ⟨hse, -⟩ := trimEnd_spec text (next_start hstart).1
      obtain ⟨hlen, hterminator, hsame⟩ :=
        (le_trimEnd_iff hstart (Nat.le_add_right s p.character)).1 (by omega)
      have hsurrogates : splitsSurrogatePair text (s + p.character) = false := hsplit
      refine ⟨⟨hlen, hterminator, hsurrogates⟩, ?_⟩
      have hfirst := same_start (Nat.le_add_right s p.character) (hline.trans hsame.symm)
      rw [positionOf, hsame, hfirst, hself, Nat.add_sub_cancel_left]
    · rintro ⟨hboundary, rfl⟩
      obtain rfl : lineStartOf text o = s :=
        Option.some.inj ((lineStarts_lineOf hboundary.inside).symm.trans hstart)
      have hle : lineStartOf text o ≤ o := lineStartOf_le
      have hshort := (le_trimEnd_iff hstart hle).2
        ⟨hboundary.inside, hboundary.terminator, rfl⟩
      have hback : lineStartOf text o + (positionOf text o).character = o :=
        Nat.add_sub_cancel' hle
      have hfits : ¬ trimEnd text (lineStartOf text o) ((lineStarts text)[(positionOf text o).line
          + 1]?.getD text.length) - lineStartOf text o < (positionOf text o).character := by
        rw [positionOf]
        exact Nat.not_lt.2 (Nat.sub_le_sub_right hshort _)
      simp only [rejectIf_of_not hfits, hback, hboundary.surrogates, ok_bind]
      rfl

end

/-- For every text: an offset is the image of exactly one position when it
splits neither a terminator nor a surrogate pair; an accepted position maps to
such an offset, on its own line with no terminator before it there; and a later
position never maps to an earlier offset. -/
theorem lsp_positions_exact (text : Units) :
    (∀ o ≤ text.length, ¬ splitsTerminator text o → splitsSurrogatePair text o = false →
      ∃! p, offsetForPosition text (lineStarts text) p = .ok o)
    ∧ (∀ p o, offsetForPosition text (lineStarts text) p = .ok o →
      Boundary text o ∧ p = positionOf text o
        ∧ ∀ i, lineStartOf text o ≤ i → i < o → ¬ endsLine text i)
    ∧ ∀ p q a b, offsetForPosition text (lineStarts text) p = .ok a →
      offsetForPosition text (lineStarts text) q = .ok b →
      (p.line < q.line ∨ p.line = q.line ∧ p.character ≤ q.character) → a ≤ b := by
  refine ⟨?_, ?_, ?_⟩
  · intro o ho hterminator hsurrogates
    refine ⟨positionOf text o, offsetForPosition_iff.2 ⟨⟨ho, hterminator, hsurrogates⟩, rfl⟩, ?_⟩
    exact fun p hp => (offsetForPosition_iff.1 hp).2
  · intro p o hp
    obtain ⟨hboundary, rfl⟩ := offsetForPosition_iff.1 hp
    refine ⟨hboundary, rfl, ?_⟩
    have hclean : ∀ i, lineStartOf text o ≤ i → i < o → ¬ terminates text i := by
      intro i hi hio hends
      have hlt : lineOf text (lineStartOf text o) < lineOf text o := lineOf_lt hends hi hio
      rw [lineOf_lineStartOf] at hlt
      exact Nat.lt_irrefl _ hlt
    intro i hi hio hunit
    rcases hunit with hfeed | hreturn
    · exact hclean i hi hio (.inl hfeed)
    · by_cases hfeed : text[i + 1]? = some lineFeed
      · by_cases hlast : i + 1 = o
        · subst hlast
          exact hboundary.terminator ⟨Nat.succ_pos i, hreturn, hfeed⟩
        · exact hclean (i + 1) (by omega) (by omega) (.inl hfeed)
      · exact hclean i hi hio (.inr ⟨hreturn, hfeed⟩)
  · intro p q a b hp hq hle
    obtain ⟨-, rfl⟩ := offsetForPosition_iff.1 hp
    obtain ⟨-, rfl⟩ := offsetForPosition_iff.1 hq
    by_contra hlt
    rw [Nat.not_le] at hlt
    have hlines : lineOf text b ≤ lineOf text a := lineOf_mono hlt.le
    rcases hle with hline | ⟨hline, hcharacter⟩
    · have hline : lineOf text a < lineOf text b := hline
      omega
    · have hstart := same_start hlt.le hline.symm
      have hcharacter : a - lineStartOf text a ≤ b - lineStartOf text b := hcharacter
      have hb : lineStartOf text b ≤ b := lineStartOf_le
      omega

end OperatorRuntime.Edit
