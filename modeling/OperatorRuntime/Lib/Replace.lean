/-
Global replacement: a pass over a text that writes one character for every
occurrence of a pattern, the leftmost first, and does not look again at
what it has written.

A text is often written from tokens, of which a pass decodes some. It
decodes exactly those (`replaceAll_clear`) unless an occurrence begins at a
character that stands for itself; then it takes several tokens for one
(`replaceAll_shrinks`), and the text never gets as long again.
-/
import Mathlib.Data.List.Basic

namespace OperatorRuntime.Lib

universe u v w

variable {α : Type u} {ε : Type v}

/-- What a pattern finds at the start of a text: how many characters it
takes, and the character that is written for them. -/
abbrev Pattern (α : Type u) (ε : Type v) := List α → Option (Nat × Except ε α)

/-- `text.replace(/pattern/g, …)`; the first argument counts the characters
that the last occurrence still takes. -/
def replaceAll (find : Pattern α ε) : Nat → List α → Except ε (List α)
  | _, [] => .ok []
  | skip + 1, _ :: rest => replaceAll find skip rest
  | 0, c :: rest =>
    match find (c :: rest) with
    | none => (c :: ·) <$> replaceAll find 0 rest
    | some (size, written) => do
      let c' ← written
      (c' :: ·) <$> replaceAll find (size - 1) rest

section
variable {find : Pattern α ε}

theorem replaceAll_skip (taken rest : List α) :
    replaceAll find taken.length (taken ++ rest) = replaceAll find 0 rest := by
  induction taken with
  | nil => rfl
  | cons c taken ih => exact ih

theorem replaceAll_found {taken rest : List α} {written : Except ε α} (hne : taken ≠ [])
    (h : find (taken ++ rest) = some (taken.length, written)) : replaceAll find 0 (taken ++ rest)
    = written >>= fun c => (c :: ·) <$> replaceAll find 0 rest := by
  cases taken with
  | nil => exact absurd rfl hne
  | cons c taken =>
    rw [List.cons_append] at h ⊢
    rw [replaceAll, h]
    dsimp only
    rw [List.length_cons, Nat.add_sub_cancel, replaceAll_skip]

theorem replaceAll_missed {c : α} {rest : List α} (h : find (c :: rest) = none) :
    replaceAll find 0 (c :: rest) = (c :: ·) <$> replaceAll find 0 rest := by
  rw [replaceAll, h]

theorem replaceAll_passed {passed rest : List α}
    (h : ∀ start, start <:+ passed → start ≠ [] → find (start ++ rest) = none) :
    replaceAll find 0 (passed ++ rest) = (passed ++ ·) <$> replaceAll find 0 rest := by
  induction passed with
  | nil =>
    show replaceAll find 0 rest = id <$> replaceAll find 0 rest
    rw [id_map]
  | cons c passed ih =>
    have hmissed : find (c :: (passed ++ rest)) = none :=
      h (c :: passed) List.suffix_rfl (List.cons_ne_nil _ _)
    rw [List.cons_append, replaceAll_missed hmissed,
      ih fun start hstart => h start (hstart.trans (List.suffix_cons c passed)), ← comp_map]
    rfl

end

-- ===== tokens

/-- Tokens that a text is written from. Some stand for themselves; a pass
decodes others, and passes over the rest. -/
structure Tokens (α : Type u) (ε : Type v) (τ : Type w) where
  write : τ → List α
  plain : α → τ
  decode : τ → Option α
  find : Pattern α ε
  write_plain : ∀ c, write (plain c) = [c]
  decode_plain : ∀ c, decode (plain c) = none
  decodes : ∀ t c rest, decode t = some c →
    write t ≠ [] ∧ find (write t ++ rest) = some ((write t).length, .ok c)
  passes : ∀ t rest, decode t = none → (∀ c, t ≠ plain c) →
    ∀ start, start <:+ write t → start ≠ [] → find (start ++ rest) = none
  /-- An occurrence that begins at a token that stands for itself takes
  only such tokens. -/
  takes : ∀ c ts size written, find (c :: ts.flatMap write) = some (size, written) →
    ∃ taken rest, taken ≠ [] ∧ ts = List.map plain taken ++ rest ∧ size = taken.length + 1

namespace Tokens

variable {τ : Type w} (k : Tokens α ε τ)

/-- The text the tokens write. -/
def text (ts : List τ) : List α :=
  ts.flatMap k.write

/-- A token after the pass. -/
def decoded (t : τ) : τ :=
  ((k.decode t).map k.plain).getD t

/-- No occurrence begins at a token that stands for itself. -/
def Clear (ts : List τ) : Prop :=
  ∀ before c after, ts = before ++ k.plain c :: after → k.find (c :: k.text after) = none

variable {k}

theorem Clear.tail {t : τ} {ts : List τ} (h : k.Clear (t :: ts)) : k.Clear ts :=
  fun before c after heq => h (t :: before) c after (by rw [heq, List.cons_append])

theorem text_cons (t : τ) (ts : List τ) : k.text (t :: ts) = k.write t ++ k.text ts :=
  List.flatMap_cons

theorem text_plain (cs : List α) (ts : List τ) :
    k.text (cs.map k.plain ++ ts) = cs ++ k.text ts := by
  induction cs with
  | nil => rfl
  | cons c cs ih =>
    rw [List.map_cons, List.cons_append, text_cons, ih, k.write_plain]
    rfl

theorem plain_inj {c c' : α} (h : k.plain c = k.plain c') : c = c' := by
  have hwrite := congrArg k.write h
  rw [k.write_plain, k.write_plain] at hwrite
  exact List.head_eq_of_cons_eq hwrite

/-- What the pass does at a token: no occurrence begins at it but its own,
or it stands for itself and an occurrence takes tokens that follow. -/
theorem replaceAll_token (t : τ) (ts : List τ) :
    ((∀ c, t = k.plain c → k.find (c :: k.text ts) = none) ∧ replaceAll k.find 0 (k.text (t :: ts))
          = (k.write (k.decoded t) ++ ·) <$> replaceAll k.find 0 (k.text ts))
      ∨ ∃ (c : α) (taken : List α) (rest : List τ) (written : Except ε α), taken ≠ []
        ∧ t = k.plain c ∧ ts = taken.map k.plain ++ rest ∧ k.find (c :: k.text ts) ≠ none
        ∧ replaceAll k.find 0 (k.text (t :: ts))
          = written >>= fun c' => (c' :: ·) <$> replaceAll k.find 0 (k.text rest) := by
  rw [text_cons]
  cases hdecode : k.decode t with
  | some c =>
    obtain ⟨hne, hfind⟩ := k.decodes t c (k.text ts) hdecode
    refine .inl ⟨?_, ?_⟩
    · intro c' heq
      rw [heq, k.decode_plain] at hdecode
      cases hdecode
    · rw [replaceAll_found hne hfind, decoded, hdecode, Option.map_some, Option.getD_some,
        k.write_plain]
      rfl
  | none =>
    have hsame : k.decoded t = t := by rw [decoded, hdecode]; rfl
    by_cases hplain : ∃ c, t = k.plain c
    · obtain ⟨c, rfl⟩ := hplain
      rw [hsame, k.write_plain, List.singleton_append]
      cases hfind : k.find (c :: k.text ts) with
      | none =>
        refine .inl ⟨?_, replaceAll_missed hfind⟩
        intro c' heq
        rw [← plain_inj heq]
        exact hfind
      | some found =>
        obtain ⟨size, written⟩ := found
        obtain ⟨taken, rest, htaken, rfl, rfl⟩ := k.takes c ts size written hfind
        refine .inr ⟨c, taken, rest, written, htaken, rfl, rfl, by simp [hfind], ?_⟩
        rw [text_plain] at hfind ⊢
        have hcons : k.find ((c :: taken) ++ k.text rest)
            = some ((c :: taken).length, written) := hfind
        exact replaceAll_found (List.cons_ne_nil _ _) hcons
    · refine .inl ⟨fun c heq => absurd ⟨c, heq⟩ hplain, ?_⟩
      rw [hsame]
      exact replaceAll_passed (k.passes t (k.text ts) hdecode fun c heq => hplain ⟨c, heq⟩)

theorem replaceAll_clear {ts : List τ} (h : k.Clear ts) :
    replaceAll k.find 0 (k.text ts) = .ok (k.text (ts.map k.decoded)) := by
  induction ts with
  | nil => rfl
  | cons t ts ih =>
    rcases replaceAll_token (k := k) t ts with ⟨-, hstep⟩ | ⟨c, _, _, _, -, rfl, -, hfind, -⟩
    · rw [hstep, ih h.tail, List.map_cons, text_cons]
      rfl
    · exact absurd (h [] c ts rfl) hfind

theorem Clear.cons {t : τ} {ts : List τ} (h : k.Clear ts)
    (hfirst : ∀ c, t = k.plain c → k.find (c :: k.text ts) = none) : k.Clear (t :: ts) := by
  intro before c after heq
  cases before with
  | nil =>
    obtain ⟨rfl, rfl⟩ := List.cons.inj heq
    exact hfirst c rfl
  | cons u before => exact h before c after (List.cons.inj heq).2

theorem mem_decoded (t : τ) :
    (∃ c, k.decoded t = k.plain c) ∨ (k.decoded t = t ∧ k.decode t = none) := by
  cases hdecode : k.decode t with
  | none => exact .inr ⟨by rw [decoded, hdecode]; rfl, rfl⟩
  | some c => exact .inl ⟨c, by rw [decoded, hdecode]; rfl⟩

/-- Whatever the pass does, it leaves no more tokens than there were, none
of which it decodes, and fewer where an occurrence began at a token that
stands for itself. By induction on the number of tokens. -/
theorem replaceAll_shrinks {ts : List τ} {out : List α}
    (h : replaceAll k.find 0 (k.text ts) = .ok out) :
    ∃ ts', out = k.text ts' ∧ ts'.length ≤ ts.length ∧ (¬ k.Clear ts → ts'.length < ts.length)
    ∧ ∀ t ∈ ts', (∃ c, t = k.plain c) ∨ (t ∈ ts ∧ k.decode t = none) := by
  induction hn : ts.length using Nat.strongRecOn generalizing ts out with
  | ind n ih =>
    cases ts with
    | nil =>
      cases h
      refine ⟨[], rfl, Nat.zero_le _, ?_, fun _ hin => (nomatch hin)⟩
      intro hclear
      exact absurd (fun before c after heq => by simp at heq) hclear
    | cons t ts =>
      subst hn
      rcases replaceAll_token (k := k) t ts with ⟨hfirst, hstep⟩ |
        ⟨c, taken, rest, written, htaken, rfl, rfl, -, hstep⟩
      · rw [hstep] at h
        cases hrest : replaceAll k.find 0 (k.text ts) with
        | error e =>
          rw [hrest] at h
          cases h
        | ok out' =>
          rw [hrest] at h
          obtain ⟨ts', rfl, hle, hlt, hleft⟩ := ih ts.length (Nat.lt_succ_self _) hrest rfl
          cases h
          refine ⟨k.decoded t :: ts', (text_cons ..).symm, Nat.succ_le_succ hle, ?_, ?_⟩
          · intro hnot
            exact Nat.succ_lt_succ (hlt fun hclear => hnot (hclear.cons hfirst))
          · intro u hu
            rcases List.mem_cons.1 hu with rfl | hu
            · rcases mem_decoded t with hplain | ⟨hsame, hnone⟩
              · exact .inl hplain
              · rw [hsame]
                exact .inr ⟨List.mem_cons_self .., hnone⟩
            · rcases hleft u hu with hplain | ⟨hin, hnone⟩
              · exact .inl hplain
              · exact .inr ⟨List.mem_cons_of_mem _ hin, hnone⟩
      · rw [hstep] at h
        have hpos := List.length_pos_of_ne_nil htaken
        have hlength : (List.map k.plain taken ++ rest).length = taken.length + rest.length := by
          rw [List.length_append, List.length_map]
        cases written with
        | error e => cases h
        | ok c' =>
          cases hrest : replaceAll k.find 0 (k.text rest) with
          | error e =>
            rw [hrest] at h
            cases h
          | ok out' =>
            rw [hrest] at h
            have hless : rest.length < (k.plain c :: (taken.map k.plain ++ rest)).length := by
              rw [List.length_cons, hlength]
              omega
            obtain ⟨ts', rfl, hle, -, hleft⟩ := ih rest.length hless hrest rfl
            cases h
            refine ⟨k.plain c' :: ts', ?_, ?_, ?_, ?_⟩
            · rw [text_cons, k.write_plain]
              rfl
            · rw [List.length_cons, List.length_cons, hlength]
              omega
            · intro _
              rw [List.length_cons, List.length_cons, hlength]
              omega
            · intro u hu
              rcases List.mem_cons.1 hu with rfl | hu
              · exact .inl ⟨c', rfl⟩
              · rcases hleft u hu with hplain | ⟨hin, hnone⟩
                · exact .inl hplain
                · exact .inr ⟨List.mem_cons_of_mem _ (List.mem_append_right _ hin), hnone⟩

end Tokens

end OperatorRuntime.Lib
