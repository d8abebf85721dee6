/-
Crashes of appends. A call whose write stops leaves a part of its line, and the
next line is written after it. While every write starts on a line of its own,
and one that stops has written nothing of its turn or all of it, the file can be
listed (`ledger_survives`); an opening brace alone is enough to lose it
(`torn_line_sample`).
-/
import OperatorRuntime.Conversation.Proofs.Lines
import OperatorRuntime.Lib.Runs

namespace OperatorRuntime.Conversation

open Lib

variable {platform : Platform} {conversationId : BoundedId} {turns : List ConversationTurn}
  {file : Option File}

-- ===== bytes

theorem byteLength_append (a b : List Char) : byteLength (a ++ b) = byteLength a + byteLength b := by
  rw [byteLength, List.map_append, List.sum_append]
  rfl

@[simp] theorem File.write_text (file : File) (content : List Char) :
    (file.write content).text = file.text ++ content :=
  rfl

@[simp] theorem File.write_size (file : File) (content : List Char) :
    (file.write content).size = file.size + byteLength content :=
  rfl

theorem length_le_byteLength (text : List Char) : text.length ≤ byteLength text := by
  induction text with
  | nil => exact Nat.zero_le _
  | cons c text ih =>
    have hpos := c.utf8Size_pos
    rw [byteLength, List.map_cons, List.sum_cons, List.length_cons]
    unfold byteLength at ih
    omega

theorem length_le_ledgerText (turns : List ConversationTurn) :
    turns.length ≤ (ledgerText turns).length := by
  induction turns with
  | nil => exact Nat.zero_le _
  | cons turn turns ih =>
    have hline : (ledgerText (turn :: turns)).length = turn.line.length + (ledgerText turns).length :=
      List.length_append
    have hpos : 1 ≤ turn.line.length := by
      rw [ConversationTurn.line, List.length_append, List.length_singleton]
      omega
    rw [hline, List.length_cons]
    omega

-- ===== what a file holds

def textOfFile (file : Option File) : List Char :=
  (file.getD emptyFile).text

/-- The file has a line for each turn; the last one may lack its line break. -/
inductive HasLines (turns : List ConversationTurn) (file : Option File) : Prop
  | ended : textOfFile file = ledgerText turns → HasLines turns file
  | open (before : List ConversationTurn) (last : ConversationTurn) :
      turns = before ++ [last] → textOfFile file = ledgerText before ++ last.text →
      HasLines turns file

structure Holds (platform : Platform) (conversationId : BoundedId) (turns : List ConversationTurn)
    (file : Option File) : Prop where
  valid : ∀ t ∈ turns, t.Valid platform
  sequence : Consecutive ConversationTurn.sequence 1 turns
  checked : checkTurns conversationId 0 [] turns = .ok ()
  lines : HasLines turns file
  size : (file.getD emptyFile).size = byteLength (textOfFile file)
  room : (file.getD emptyFile).size ≤ maxLedgerBytes

/-- The next line would start on a line of its own. -/
def EndsLine (file : Option File) : Prop :=
  ∀ c ∈ (textOfFile file).getLast?, c = '\n'

theorem getLast_text (turn : ConversationTurn) (text : List Char) :
    (text ++ turn.text).getLast? = some '\x7d' := by
  obtain ⟨body, hbody⟩ := text_eq turn
  rw [hbody, ← List.cons_append, ← List.append_assoc, List.getLast?_concat]

theorem Holds.ended (h : Holds platform conversationId turns file) (hends : EndsLine file) :
    textOfFile file = ledgerText turns := by
  cases h.lines with
  | ended htext => exact htext
  | «open» before last hturns htext =>
    have hlast := hends '\x7d' (by rw [htext]; exact getLast_text last _)
    cases hlast

theorem ledgerText_eq_nil (h : ledgerText turns = []) : turns = [] := by
  have hlen := length_le_ledgerText turns
  rw [h] at hlen
  exact List.length_eq_zero_iff.1 (Nat.le_zero.1 hlen)

theorem listUnlocked_some {file : File} {c : Char} (hroom : file.size ≤ maxLedgerBytes)
    (hmem : c ∈ file.text) (hc : isBlank c = false) :
    listUnlocked platform conversationId (some file) = do
      let turns ← ((trimEnd file.text).splitOn '\n').zipIdx.mapM fun (line, index) =>
        parseTurn platform line (index + 1)
      checkTurns conversationId 0 [] turns
      return turns := by
  have hsome : ¬ file.text.all isBlank = true := by
    intro hall
    rw [List.all_eq_true.1 hall c hmem] at hc
    cases hc
  rw [listUnlocked, rejectIf_of_not (Nat.not_lt.2 hroom), ok_bind, if_neg hsome]

theorem list_lines {file : File} {last : ConversationTurn} (blanks : List Char)
    (hvalid : ∀ t ∈ turns ++ [last], t.Valid platform)
    (hsequence : Consecutive ConversationTurn.sequence 1 (turns ++ [last]))
    (hchecked : checkTurns conversationId 0 [] (turns ++ [last]) = .ok ())
    (hroom : file.size ≤ maxLedgerBytes) (hblanks : ∀ b ∈ blanks, isBlank b = true)
    (htext : file.text = ledgerText turns ++ last.text ++ blanks) :
    listUnlocked platform conversationId (some file) = .ok (turns ++ [last]) := by
  obtain ⟨body, hbody⟩ := text_eq last
  have hlast : last.text = ('\x7b' :: body) ++ ['\x7d'] := hbody
  have hnewline := newline_not_mem_text (hvalid last (List.mem_append_right _ (List.mem_singleton_self _)))
  have hsplit := splitOn_ledger turns blanks (fun t ht => hvalid t (List.mem_append_left _ ht))
    (hlast ▸ hnewline) (by decide) hblanks
  have hlines : (trimEnd file.text).splitOn '\n' = (turns ++ [last]).map ConversationTurn.text := by
    rw [htext, hlast, hsplit, List.map_append, ← hlast]
    rfl
  have hbrace : '\x7b' ∈ file.text := by
    rw [htext, hlast]
    simp
  rw [listUnlocked_some hroom hbrace (by decide), hlines, mapM_parseTurn hvalid hsequence, ok_bind,
    hchecked]
  rfl

theorem Holds.list_ok (h : Holds platform conversationId turns file) :
    listUnlocked platform conversationId file = .ok turns := by
  cases file with
  | none =>
    cases h.lines with
    | ended htext => rw [ledgerText_eq_nil htext.symm]; rfl
    | «open» before last hturns htext =>
      have hnil : ledgerText before ++ last.text = [] := htext.symm
      exact absurd (List.append_eq_nil_iff.1 hnil).2 (text_ne_nil last)
  | some file =>
    have hroom : file.size ≤ maxLedgerBytes := h.room
    cases h.lines with
    | «open» before last hturns htext =>
      subst hturns
      exact list_lines [] h.valid h.sequence h.checked hroom (fun b hb => nomatch hb)
        (by rw [List.append_nil]; exact htext)
    | ended htext =>
      have hfile : file.text = ledgerText turns := htext
      rcases List.eq_nil_or_concat turns with hnil | ⟨before, last, hturns⟩
      · subst hnil
        rw [listUnlocked, rejectIf_of_not (Nat.not_lt.2 hroom), ok_bind, hfile]
        rfl
      · rw [List.concat_eq_append] at hturns
        subst hturns
        refine list_lines ['\n'] h.valid h.sequence h.checked hroom ?_ ?_
        · intro b hb
          rw [List.mem_singleton.1 hb]
          decide
        · rw [hfile, ledgerText_append, ConversationTurn.line, List.append_assoc]

-- ===== what is appended

/-- The turn of a call whose input is accepted. -/
structure Next (platform : Platform) (conversationId : BoundedId) (existing : List ConversationTurn)
    (createdAt : Instant) (id : BoundedId) (turn : ConversationTurn) : Prop where
  id : turn.id = id
  conversationId : turn.conversationId = conversationId
  sequence : turn.sequence = existing.length + 1
  createdAt : turn.createdAt = createdAt
  content : ∀ content ∈ turn.content,
    boundedText (some (.str content)) maxTurnBytes "content" = .ok content
      ∧ platform.sha256 content = turn.contentDigest
  supersedes : ∀ ids ∈ turn.supersedes, ids.length ≤ 1000 ∧ ids.Nodup
    ∧ ∀ id ∈ ids, id ∈ existing.map ConversationTurn.id

theorem nextTurn_ok {input : AppendInput} {createdAt : Instant} {id : BoundedId}
    {turn : ConversationTurn}
    (h : nextTurn platform conversationId turns input createdAt id = .ok turn) :
    Next platform conversationId turns createdAt id turn := by
  simp only [nextTurn, bind_eq_ok, rejectIf_eq_ok] at h
  obtain ⟨content, hcontent, role, -, ids, hids, _, hknown, h⟩ := h
  cases h
  refine ⟨rfl, rfl, rfl, rfl, ?_, ?_⟩
  · intro text htext
    dsimp only at htext
    split at htext
    · rw [Option.mem_some_iff] at htext
      subst htext
      exact ⟨(boundedText_ok hcontent).2, rfl⟩
    · cases htext
  · intro ids' hids'
    dsimp only at hids'
    split at hids'
    · cases hids'
    · rw [Option.mem_some_iff] at hids'
      subst hids'
      obtain ⟨hlen, hnodup⟩ := AppendInput.ids_ok hids
      refine ⟨hlen, hnodup, ?_⟩
      intro id hid
      by_contra hnot
      exact hknown ⟨id, hid, hnot⟩

theorem prepare_ok {input : AppendInput} {createdAt : Instant} {id : BoundedId}
    {turn : ConversationTurn} (h : Holds platform conversationId turns file)
    (hprepare : prepare platform conversationId file input createdAt id = .ok turn) :
    Next platform conversationId turns createdAt id turn
    ∧ (file.getD emptyFile).size + byteLength turn.line ≤ maxLedgerBytes := by
  simp only [prepare, bind_eq_ok, checkRoom, rejectIf_eq_ok] at hprepare
  obtain ⟨existing, hlist, next, hnext, _, ⟨_, -, hroom⟩, hturn⟩ := hprepare
  cases hturn
  rw [h.list_ok] at hlist
  cases hlist
  refine ⟨nextTurn_ok hnext, ?_⟩
  cases file with
  | none => exact Nat.not_lt.1 hroom
  | some file => exact Nat.not_lt.1 hroom

theorem Holds.extend {createdAt : Instant} {id : BoundedId} {turn : ConversationTurn}
    (text : List Char) (h : Holds platform conversationId turns file)
    (htext : textOfFile file = ledgerText turns)
    (hnext : Next platform conversationId turns createdAt id turn)
    (hdate : platform.dateParse createdAt.isoText = some createdAt)
    (hid : id ∉ turns.map ConversationTurn.id)
    (hroom : (file.getD emptyFile).size + byteLength turn.line ≤ maxLedgerBytes)
    (hwritten : text = turn.line ∨ text = turn.text) :
    Holds platform conversationId (turns ++ [turn]) (some ((file.getD emptyFile).write text)) := by
  have hbytes : byteLength text ≤ byteLength turn.line := by
    rcases hwritten with rfl | rfl
    · exact Nat.le_refl _
    · rw [ConversationTurn.line, byteLength_append]
      exact Nat.le_add_right _ _
  have hcount : turns.length < maxSafeInteger := by
    have hlines := length_le_ledgerText turns
    have hlen := length_le_byteLength (ledgerText turns)
    have hsize := h.size
    rw [htext] at hsize
    have hroom := h.room
    have hmax : maxLedgerBytes < maxSafeInteger := by decide
    omega
  constructor
  · intro t ht
    rcases List.mem_append.1 ht with ht | ht
    · exact h.valid t ht
    · rw [List.mem_singleton.1 ht]
      refine ⟨?_, hnext.content, ?_, fun ids hids => ?_⟩
      · rw [hnext.sequence]
        omega
      · rw [hnext.createdAt]
        exact hdate
      · exact ⟨(hnext.supersedes ids hids).1, (hnext.supersedes ids hids).2.1⟩
  · exact h.sequence.append (by rw [hnext.sequence, Nat.add_comm])
  · refine checkTurns_append h.checked hnext.conversationId ?_ ?_ ?_
    · rw [hnext.sequence, Nat.zero_add]
    · rw [List.nil_append, hnext.id]
      exact hid
    · intro superseded hsuperseded
      rw [List.nil_append]
      cases hids : turn.supersedes with
      | none =>
        rw [hids] at hsuperseded
        cases hsuperseded
      | some ids =>
        rw [hids] at hsuperseded
        exact (hnext.supersedes ids hids).2.2 superseded hsuperseded
  · have hfile : textOfFile (some ((file.getD emptyFile).write text)) = ledgerText turns ++ text := by
      rw [← htext]
      rfl
    rcases hwritten with rfl | rfl
    · exact .ended (by rw [hfile, ledgerText_append])
    · exact .open turns turn rfl hfile
  · show (file.getD emptyFile).size + byteLength text = byteLength (textOfFile file ++ text)
    rw [byteLength_append, h.size]
  · show (file.getD emptyFile).size + byteLength text ≤ maxLedgerBytes
    omega

-- ===== runs

/-- A call of `append` with the time and the name it draws. One whose write
stops ends the process; one that stops earlier leaves no trace. -/
inductive Act
  | append (input : AppendInput) (createdAt : Instant) (id : BoundedId)
  | crash (input : AppendInput) (createdAt : Instant) (id : BoundedId) (cut : Cut)

def Act.input : Act → AppendInput
  | append input _ _ => input
  | crash input _ _ _ => input

def Act.createdAt : Act → Instant
  | append _ createdAt _ => createdAt
  | crash _ createdAt _ _ => createdAt

def Act.id : Act → BoundedId
  | append _ _ id => id
  | crash _ _ id _ => id

/-- The file, and beside it the turns that reached it whole, each with whether
its `append` returned. -/
structure Ledger where
  file : Option File
  turns : List (ConversationTurn × Bool)

def Ledger.start : Ledger := ⟨none, []⟩

/-- The turn whose line an act starts to write. -/
def Act.prepared (platform : Platform) (conversationId : BoundedId) (s : Ledger) (act : Act) :
    Result ConversationTurn :=
  prepare platform conversationId s.file act.input act.createdAt act.id

def Ledger.after (platform : Platform) (conversationId : BoundedId) (s : Ledger) (act : Act) : Ledger :=
  match act.prepared platform conversationId s with
  | .error _ => s
  | .ok turn =>
    match act with
    | .append .. => ⟨some ((s.file.getD emptyFile).write turn.line), s.turns ++ [(turn, true)]⟩
    | .crash _ _ _ cut =>
      ⟨some ((s.file.getD emptyFile).writeTo turn.line cut),
        if turn.text.length ≤ cut.chars then s.turns ++ [(turn, false)] else s.turns⟩

variable {s : Ledger}

theorem after_append {input : AppendInput} {createdAt : Instant} {id : BoundedId}
    {turn : ConversationTurn}
    (h : (Act.append input createdAt id).prepared platform conversationId s = .ok turn) :
    s.after platform conversationId (.append input createdAt id)
    = ⟨some ((s.file.getD emptyFile).write turn.line), s.turns ++ [(turn, true)]⟩ := by
  rw [Ledger.after, h]

theorem after_crash {input : AppendInput} {createdAt : Instant} {id : BoundedId} {cut : Cut}
    {turn : ConversationTurn}
    (h : (Act.crash input createdAt id cut).prepared platform conversationId s = .ok turn) :
    s.after platform conversationId (.crash input createdAt id cut)
      = ⟨some ((s.file.getD emptyFile).writeTo turn.line cut),
          if turn.text.length ≤ cut.chars then s.turns ++ [(turn, false)] else s.turns⟩ := by
  rw [Ledger.after, h]

/-- What the runtime answers a call: a time that `Date.parse` reads back, and a
name that no turn of the file has; and where a write can stop. -/
structure Act.Drawn (platform : Platform) (conversationId : BoundedId) (s : Ledger) (act : Act) :
    Prop where
  date : platform.dateParse act.createdAt.isoText = some act.createdAt
  fresh : act.id ∉ s.turns.map fun t => t.1.id
  within : ∀ input createdAt id cut turn, act = .crash input createdAt id cut →
    act.prepared platform conversationId s = .ok turn → cut.within turn.line

def Step (platform : Platform) (conversationId : BoundedId) (s : Ledger) (act : Act) (t : Ledger) :
    Prop :=
  act.Drawn platform conversationId s ∧ t = s.after platform conversationId act

/-- A write starts on a line of its own, and one that stops has written nothing
of its turn or all of it. -/
def Clean (platform : Platform) (conversationId : BoundedId) (s : Ledger) (act : Act) : Prop :=
  ∀ turn, act.prepared platform conversationId s = .ok turn →
    EndsLine s.file ∧ ∀ input createdAt id cut, act = .crash input createdAt id cut →
      cut = ⟨0, 0⟩ ∨ turn.text.length ≤ cut.chars

/-- The list answers, and an append fails for its input or for want of room only. -/
structure Survives (platform : Platform) (conversationId : BoundedId) (s : Ledger) : Prop where
  listed : listUnlocked platform conversationId s.file = .ok (s.turns.map Prod.fst)
  contiguous : Consecutive ConversationTurn.sequence 1 (s.turns.map Prod.fst)
  appends : ∀ input createdAt id turn,
    nextTurn platform conversationId (s.turns.map Prod.fst) input createdAt id = .ok turn →
    checkRoom s.file turn.line = .ok () →
    append platform conversationId s.file input createdAt id
      = .ok (turn, (s.file.getD emptyFile).write turn.line)

variable {n : Nat}

theorem within_of_lt {content : List Char} (h : n < content.length) :
    Cut.within ⟨n, 0⟩ content := by
  rw [Cut.within, List.getElem?_eq_getElem h]
  exact Char.utf8Size_pos _

theorem drawn_crash {input : AppendInput} {createdAt : Instant} {id : BoundedId} {cut : Cut}
    {turn : ConversationTurn} (hdate : platform.dateParse createdAt.isoText = some createdAt)
    (hfresh : id ∉ s.turns.map fun t => t.1.id)
    (hprepared : (Act.crash input createdAt id cut).prepared platform conversationId s = .ok turn)
    (hwithin : cut.within turn.line) :
    (Act.crash input createdAt id cut).Drawn platform conversationId s := by
  refine ⟨hdate, hfresh, ?_⟩
  intro input' createdAt' id' cut' turn' hact hturn
  cases hact
  rw [hprepared] at hturn
  cases hturn
  exact hwithin

theorem writeTo_text {turn : ConversationTurn} {cut : Cut} (file : File)
    (hwithin : cut.within turn.line) (hall : turn.text.length ≤ cut.chars) :
    ∃ text, (text = turn.line ∨ text = turn.text) ∧ file.writeTo turn.line cut = file.write text := by
  have hlen : turn.line.length = turn.text.length + 1 := by
    rw [ConversationTurn.line, List.length_append, List.length_singleton]
  rcases Nat.eq_or_lt_of_le hall with heq | hlt
  · have hbreak : turn.line[cut.chars]? = some '\n' := by
      rw [ConversationTurn.line, ← heq, List.getElem?_concat_length]
    rw [Cut.within, hbreak] at hwithin
    have hbytes : cut.bytes = 0 := Nat.lt_one_iff.1 hwithin
    have htake : turn.line.take cut.chars = turn.text := by
      rw [ConversationTurn.line, ← heq, List.take_left]
    exact ⟨turn.text, .inr rfl, by rw [File.writeTo, if_pos hbytes, htake]⟩
  · have hnone : turn.line[cut.chars]? = none := List.getElem?_eq_none (by omega)
    rw [Cut.within, hnone] at hwithin
    obtain ⟨hchars, hbytes⟩ := hwithin
    have htake : turn.line.take cut.chars = turn.line := by
      rw [hchars, List.take_length]
    exact ⟨turn.line, .inl rfl, by rw [File.writeTo, if_pos hbytes, htake]⟩

theorem step_holds {t : Ledger} {act : Act}
    (h : Holds platform conversationId (s.turns.map Prod.fst) s.file)
    (hstep : Step platform conversationId s act t) (hclean : Clean platform conversationId s act) :
    Holds platform conversationId (t.turns.map Prod.fst) t.file := by
  obtain ⟨hdrawn, rfl⟩ := hstep
  cases hprepared : act.prepared platform conversationId s with
  | error e =>
    rw [Ledger.after, hprepared]
    exact h
  | ok turn =>
    obtain ⟨hends, hcut⟩ := hclean turn hprepared
    obtain ⟨hnext, hroom⟩ := prepare_ok h hprepared
    have hfresh : act.id ∉ (s.turns.map Prod.fst).map ConversationTurn.id := by
      rw [List.map_map]
      exact hdrawn.fresh
    have hextend := fun text => h.extend text (h.ended hends) hnext hdrawn.date hfresh hroom
    cases act with
    | append input createdAt id =>
      rw [after_append hprepared, List.map_append]
      exact hextend turn.line (.inl rfl)
    | crash input createdAt id cut =>
      rw [after_crash hprepared]
      rcases hcut input createdAt id cut rfl with hnothing | hall
      · subst hnothing
        have hpos : ¬ turn.text.length ≤ 0 := by
          rw [Nat.le_zero, List.length_eq_zero_iff]
          exact text_ne_nil turn
        have hsame : (s.file.getD emptyFile).writeTo turn.line ⟨0, 0⟩ = s.file.getD emptyFile := by
          show File.mk (_ ++ []) (_ + byteLength []) = _
          rw [List.append_nil]
          rfl
        rw [if_neg hpos, hsame]
        refine ⟨h.valid, h.sequence, h.checked, ?_, h.size, h.room⟩
        cases h.lines with
        | ended htext => exact .ended htext
        | «open» before last hturns htext => exact .open before last hturns htext
      · obtain ⟨text, hwritten, hfile⟩ := writeTo_text (s.file.getD emptyFile)
          (hdrawn.within input createdAt id cut turn rfl hprepared) hall
        rw [if_pos hall, hfile, List.map_append]
        exact hextend text hwritten

theorem Holds.survives (h : Holds platform conversationId (s.turns.map Prod.fst) s.file) :
    Survives platform conversationId s := by
  refine ⟨h.list_ok, h.sequence, ?_⟩
  intro input createdAt id turn hnext hroom
  rw [append, prepare, h.list_ok, ok_bind, hnext, ok_bind, hroom, ok_bind]
  rfl

theorem holds_start : Holds platform conversationId [] none :=
  ⟨fun _ ht => (nomatch ht), rfl, rfl, .ended rfl, rfl, Nat.zero_le _⟩

/-- Where every write starts on a line of its own and stops at the end of a turn
if it stops, the ledger survives every crash. -/
theorem ledger_survives {acts : List Act} {s : Ledger}
    (hrun : Run (Where (Step platform conversationId) (Clean platform conversationId)) Ledger.start
      acts s) : Survives platform conversationId s := by
  have hholds : Holds platform conversationId (s.turns.map Prod.fst) s.file :=
    hrun.invariant (I := fun s => Holds platform conversationId (s.turns.map Prod.fst) s.file)
      holds_start fun h hstep => step_holds h hstep.1 hstep.2
  exact hholds.survives

-- ===== a torn line

theorem list_torn {file : File} (last : List Char) (c : Char)
    (h : Holds platform conversationId turns (some file)) (hends : EndsLine (some file))
    (hlast : '\n' ∉ last ++ [c]) (hc : isBlank c = false)
    (hparse : Json.parse platform.renderNumber (last ++ [c]) = none) {torn : File}
    (htext : torn.text = file.text ++ (last ++ [c])) (hroom : torn.size ≤ maxLedgerBytes) :
    listUnlocked platform conversationId (some torn)
    = ledgerCorrupt "Conversation ledger contains invalid JSON." := by
  have hfile : file.text = ledgerText turns := h.ended hends
  have hsplit := splitOn_ledger turns [] h.valid hlast hc (fun b hb => nomatch hb)
  rw [List.append_nil] at hsplit
  have hmem : c ∈ torn.text := by
    rw [htext]
    simp
  have hbad : parseTurn platform (last ++ [c]) (turns.length + 1)
      = ledgerCorrupt "Conversation ledger contains invalid JSON." := by
    rw [parseTurn, hparse]
  rw [listUnlocked_some hroom hmem hc, htext, hfile, hsplit, List.zipIdx_append, List.mapM_append,
    mapM_parseTurn h.valid h.sequence, ok_bind, List.length_map, List.zipIdx_cons, List.zipIdx_nil,
    Nat.zero_add, List.mapM_cons]
  dsimp only
  rw [hbad]
  rfl

theorem take_line (turn : ConversationTurn) : turn.line.take 1 = ['\x7b'] := by
  obtain ⟨body, hbody⟩ := text_eq turn
  rw [ConversationTurn.line, hbody]
  rfl

theorem step_torn {input : AppendInput} {createdAt : Instant} {id : BoundedId}
    {turn : ConversationTurn} (hdate : platform.dateParse createdAt.isoText = some createdAt)
    (hfresh : id ∉ s.turns.map fun t => t.1.id)
    (hprepared : prepare platform conversationId s.file input createdAt id = .ok turn) :
    Step platform conversationId s (.crash input createdAt id ⟨1, 0⟩)
      ⟨some ((s.file.getD emptyFile).write ['\x7b']), s.turns⟩ := by
  obtain ⟨body, hbody⟩ := text_eq turn
  have hmore : ¬ turn.text.length ≤ 1 := by
    rw [hbody, List.length_cons, List.length_append, List.length_singleton]
    omega
  have hlen : 1 < turn.line.length := by
    rw [ConversationTurn.line, List.length_append, List.length_singleton]
    omega
  refine ⟨drawn_crash hdate hfresh hprepared (within_of_lt hlen), ?_⟩
  rw [after_crash hprepared, if_neg hmore, File.writeTo, if_pos rfl, take_line]

/-- The write stops after the break of its line: the turn stands, and its caller
never learns of it. -/
theorem step_stopped {input : AppendInput} {createdAt : Instant} {id : BoundedId}
    {turn : ConversationTurn} (hdate : platform.dateParse createdAt.isoText = some createdAt)
    (hfresh : id ∉ s.turns.map fun t => t.1.id)
    (hprepared : prepare platform conversationId s.file input createdAt id = .ok turn) :
    Step platform conversationId s (.crash input createdAt id ⟨turn.line.length, 0⟩)
      ⟨some ((s.file.getD emptyFile).write turn.line), s.turns ++ [(turn, false)]⟩ := by
  have hwithin : Cut.within ⟨turn.line.length, 0⟩ turn.line := by
    rw [Cut.within, List.getElem?_eq_none (Nat.le_refl _)]
    exact ⟨rfl, rfl⟩
  have hall : turn.text.length ≤ turn.line.length := by
    rw [ConversationTurn.line, List.length_append]
    exact Nat.le_add_right _ _
  refine ⟨drawn_crash hdate hfresh hprepared hwithin, ?_⟩
  rw [after_crash hprepared, if_pos hall, File.writeTo, if_pos rfl, List.take_length]

theorem clean_stopped {input : AppendInput} {createdAt : Instant} {id : BoundedId}
    {turn : ConversationTurn} (hends : EndsLine s.file)
    (hprepared : prepare platform conversationId s.file input createdAt id = .ok turn) :
    Clean platform conversationId s (.crash input createdAt id ⟨turn.line.length, 0⟩) := by
  intro _ hturn
  cases hprepared.symm.trans hturn
  refine ⟨hends, ?_⟩
  intro _ _ _ cut hact
  cases hact
  right
  rw [ConversationTurn.line, List.length_append]
  exact Nat.le_add_right _ _

theorem endsLine_write (file : File) (turn : ConversationTurn) : EndsLine (some (file.write turn.line)) := by
  intro c hc
  have hlast : (textOfFile (some (file.write turn.line))).getLast? = some '\n' := by
    rw [textOfFile, Option.getD_some, File.write_text, ConversationTurn.line, ← List.append_assoc,
      List.getLast?_concat]
  rw [hlast] at hc
  exact (Option.mem_some_iff.1 hc).symm

-- ===== samples

def epoch : Instant := ⟨0, zero_instant⟩

def plainPlatform : Platform where
  sha256 _ := ⟨String.ofList (List.replicate 64 '0'), zeros_hex64⟩
  dateParse text := if text = epoch.isoText then some epoch else none
  numberOfText _ := .other
  renderNumber := String.ofList

def idOf (c : Char) (h : isBoundedId (String.ofList [c]) = true) : BoundedId := ⟨String.ofList [c], h⟩

def sampleConversation : BoundedId := idOf 'l' (by decide)

def sampleInput : AppendInput where
  role := some (.str "user")
  content := some (.str "hello")
  retainContent := true
  supersedes := none

def sampleTurn (id : BoundedId) (sequence : Nat) : ConversationTurn where
  id
  conversationId := sampleConversation
  sequence
  role := .user
  contentDigest := plainPlatform.sha256 "hello"
  content := some "hello"
  createdAt := epoch
  supersedes := none

theorem epoch_date : plainPlatform.dateParse epoch.isoText = some epoch := by
  show (if epoch.isoText = epoch.isoText then some epoch else none) = some epoch
  exact if_pos rfl

theorem sample_prepare {id : BoundedId} (h : Holds plainPlatform sampleConversation turns file)
    (hn : n = turns.length + 1) (hroom : checkRoom file (sampleTurn id n).line = .ok ()) :
    prepare plainPlatform sampleConversation file sampleInput epoch id = .ok (sampleTurn id n) := by
  subst hn
  have hnext : nextTurn plainPlatform sampleConversation turns sampleInput epoch id
      = .ok (sampleTurn id (turns.length + 1)) := by
    have hcontent : boundedText sampleInput.content maxTurnBytes "content" = .ok "hello" := by
      unfold boundedText
      exact if_neg (by decide)
    have hrole : validRole sampleInput.role = .ok .user := rfl
    have hids : sampleInput.ids = .ok [] := rfl
    rw [nextTurn, hcontent, ok_bind, hrole, ok_bind, hids, ok_bind, rejectIf_of_not (by simp)]
    rfl
  rw [prepare, h.list_ok, ok_bind, hnext, ok_bind, hroom]
  rfl

def idA : BoundedId := idOf 'a' (by decide)

def idB : BoundedId := idOf 'b' (by decide)

def idC : BoundedId := idOf 'c' (by decide)

def firstAct : Act :=
  .append sampleInput epoch idA

def tornAct : Act :=
  .crash sampleInput epoch idB ⟨1, 0⟩

/-- The whole line is written, and the process stops before it can answer. -/
def stoppedAct : Act :=
  .crash sampleInput epoch idB ⟨(sampleTurn idB 2).line.length, 0⟩

def thirdAct : Act :=
  .append sampleInput epoch idC

def firstFile : File :=
  emptyFile.write (sampleTurn idA 1).line

def secondFile : File :=
  firstFile.write (sampleTurn idB 2).line

/-- The first turn is completed. -/
def firstLedger : Ledger :=
  ⟨some firstFile, [(sampleTurn idA 1, true)]⟩

/-- The second one stands, unanswered. -/
def stoppedLedger : Ledger :=
  ⟨some secondFile, [(sampleTurn idA 1, true), (sampleTurn idB 2, false)]⟩

/-- A third one follows it. -/
def thirdLedger : Ledger :=
  ⟨some (secondFile.write (sampleTurn idC 3).line), [(sampleTurn idA 1, true), (sampleTurn idB 2, false),
    (sampleTurn idC 3, true)]⟩

/-- The second one stopped after its opening brace. -/
def tornLedger : Ledger :=
  ⟨some (firstFile.write ['\x7b']), [(sampleTurn idA 1, true)]⟩

theorem line_eq (turn : ConversationTurn) :
    turn.line = '\x7b' :: ([','].intercalate (turn.fields.map Json.fieldText) ++ ['\x7d']) ++ ['\n'] := by
  rw [ConversationTurn.line, ConversationTurn.text, Json.toList_stringify_obj]

theorem line_of_first : byteLength (sampleTurn idA 1).line ≤ 1000 := by
  rw [line_eq]
  decide +kernel

theorem line_of_second : byteLength (sampleTurn idB 2).line ≤ 1000 := by
  rw [line_eq]
  decide +kernel

theorem line_of_third : byteLength (sampleTurn idC 3).line ≤ 1000 := by
  rw [line_eq]
  decide +kernel

theorem checkRoom_line {turn : ConversationTurn} (hline : byteLength turn.line ≤ 1000)
    (hsize : ∀ written, file = some written → written.size ≤ 2000) :
    checkRoom file turn.line = .ok () := by
  have hroom : (file.map File.size).getD 0 ≤ 2000 := by
    cases file with
    | none => exact Nat.zero_le _
    | some written => exact hsize written rfl
  have hpos := length_le_byteLength turn.line
  have hlen : turn.line.length = turn.text.length + 1 := by
    rw [ConversationTurn.line, List.length_append, List.length_singleton]
  have hmax : maxLedgerBytes = 268435456 := rfl
  rw [checkRoom, rejectIf_of_not (by omega), ok_bind, rejectIf_of_not (by omega)]

theorem firstFile_size : firstFile.size ≤ 1000 := by
  have hline := line_of_first
  have hempty : emptyFile.size = 0 := rfl
  rw [firstFile, File.write_size]
  omega

theorem secondFile_size : secondFile.size ≤ 2000 := by
  have hfirst := firstFile_size
  have hline := line_of_second
  rw [secondFile, File.write_size]
  omega

theorem first_step : Step plainPlatform sampleConversation Ledger.start firstAct firstLedger := by
  have hprepare : firstAct.prepared plainPlatform sampleConversation Ledger.start
      = .ok (sampleTurn idA 1) :=
    sample_prepare holds_start rfl (checkRoom_line line_of_first fun _ h => by cases h)
  refine ⟨⟨epoch_date, fun hmem => (nomatch hmem), fun _ _ _ _ _ h => (nomatch h)⟩, ?_⟩
  rw [firstAct, after_append hprepare]
  rfl

theorem first_clean : Clean plainPlatform sampleConversation Ledger.start firstAct :=
  fun _ _ => ⟨fun _ hc => (nomatch hc), fun _ _ _ _ h => (nomatch h)⟩

theorem first_holds : Holds plainPlatform sampleConversation [sampleTurn idA 1] (some firstFile) :=
  step_holds (s := Ledger.start) (t := firstLedger) holds_start first_step first_clean

theorem second_prepare : prepare plainPlatform sampleConversation firstLedger.file sampleInput epoch idB
    = .ok (sampleTurn idB 2) :=
  sample_prepare first_holds rfl (checkRoom_line line_of_second fun _ h => Option.some.inj h ▸ firstFile_size.trans (by decide))

theorem stopped_step :
    Step plainPlatform sampleConversation firstLedger stoppedAct stoppedLedger :=
  step_stopped epoch_date (by decide) second_prepare

theorem second_holds : Holds plainPlatform sampleConversation [sampleTurn idA 1, sampleTurn idB 2]
    (some secondFile) :=
  step_holds (s := firstLedger) (t := stoppedLedger) first_holds stopped_step
    (clean_stopped (endsLine_write _ _) second_prepare)

theorem third_step :
    Step plainPlatform sampleConversation stoppedLedger thirdAct thirdLedger := by
  have hprepare : thirdAct.prepared plainPlatform sampleConversation stoppedLedger
      = .ok (sampleTurn idC 3) :=
    sample_prepare second_holds rfl (checkRoom_line line_of_third fun _ h => Option.some.inj h ▸ secondFile_size)
  refine ⟨⟨epoch_date, by decide, fun _ _ _ _ _ h => by cases h⟩, ?_⟩
  rw [thirdAct, after_append hprepare]
  rfl

theorem third_clean : Clean plainPlatform sampleConversation stoppedLedger thirdAct :=
  fun _ _ => ⟨endsLine_write _ _, fun _ _ _ _ h => by cases h⟩

/-- A turn is completed, the process stops after the line of the next one, and a
third is appended. -/
theorem ledger_survives_sample : Survives plainPlatform sampleConversation thirdLedger :=
  ledger_survives (.snoc (.snoc (.snoc .nil ⟨first_step, first_clean⟩) ⟨stopped_step, clean_stopped (endsLine_write _ _) second_prepare⟩)
    ⟨third_step, third_clean⟩)

theorem torn_step : Step plainPlatform sampleConversation firstLedger tornAct tornLedger :=
  step_torn epoch_date (by decide) second_prepare

/-- One turn is completed, and the next write stops after its opening brace:
nothing can be listed or appended any more. -/
theorem torn_line_sample :
    ∃ s, Run (Step plainPlatform sampleConversation) Ledger.start [firstAct, tornAct] s
    ∧ s.turns = [(sampleTurn idA 1, true)] ∧ listUnlocked plainPlatform sampleConversation s.file
      = ledgerCorrupt "Conversation ledger contains invalid JSON."
    ∧ ∀ input createdAt id, append plainPlatform sampleConversation s.file input createdAt id
      = ledgerCorrupt "Conversation ledger contains invalid JSON." := by
  have hroom : (firstFile.write ['\x7b']).size ≤ maxLedgerBytes := by
    have hsize := firstFile_size
    have hmax : maxLedgerBytes = 268435456 := rfl
    have hbrace : byteLength ['\x7b'] = 1 := rfl
    rw [File.write_size]
    omega
  have hlist : listUnlocked plainPlatform sampleConversation tornLedger.file
      = ledgerCorrupt "Conversation ledger contains invalid JSON." :=
    list_torn [] '\x7b' first_holds (endsLine_write _ _) (by decide) (by decide) rfl (File.write_text _ _)
      hroom
  refine ⟨tornLedger, .snoc (.snoc .nil first_step) torn_step, rfl, hlist, ?_⟩
  intro input createdAt id
  rw [append, prepare, hlist]
  rfl

end OperatorRuntime.Conversation
