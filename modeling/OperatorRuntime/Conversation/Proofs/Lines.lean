/-
One line of the ledger: the text of a turn that `append` has checked is read
back as the turn (`parseTurn_text`), is one line (`newline_not_mem_text`) and
starts and ends with a brace.
-/
import OperatorRuntime.Conversation.Ledger
import OperatorRuntime.Lib.Passes

namespace OperatorRuntime.Conversation

open Lib

variable {platform : Platform}

-- ===== turns

/-- What `append` checks of a turn, and the reader checks again. -/
structure ConversationTurn.Valid (platform : Platform) (turn : ConversationTurn) : Prop where
  sequence : 1 ≤ turn.sequence ∧ turn.sequence ≤ maxSafeInteger
  content : ∀ content ∈ turn.content,
    boundedText (some (.str content)) maxTurnBytes "content" = .ok content
      ∧ platform.sha256 content = turn.contentDigest
  createdAt : platform.dateParse turn.createdAt.isoText = some turn.createdAt
  supersedes : ∀ ids ∈ turn.supersedes, ids.length ≤ 1000 ∧ ids.Nodup

theorem textOf_str (s : String) : Json.textOf (some (.str s)) = s :=
  rfl

theorem boundedId_val (id : BoundedId) (label : String) :
    boundedId (some (.str id.val)) label = .ok id := by
  have h : isBoundedId (Json.textOf (some (.str id.val))) = true := id.property
  rw [boundedId, dif_pos h]
  rfl

theorem validRole_text (role : ConversationTurnRole) : validRole (some (.str role.text)) = .ok role := by
  cases role with
  | _ => rfl

theorem digest_val (d : Hex64) : digest (some (.str d.val)) = .ok d := by
  rw [digest, textOf_str, hex64_val]

theorem iso_text {at' : Instant} (h : platform.dateParse at'.isoText = some at') :
    iso platform (some (.str at'.isoText)) = .ok at' := by
  rw [iso, textOf_str, h]
  exact if_pos rfl

theorem integer_sequence {n : Nat} (h : 1 ≤ n ∧ n ≤ maxSafeInteger) (label : String) :
    integer platform (some (.num (toString n))) label = .ok n := by
  have hsafe : (Number.int n).safeFrom? 1 = some n := by
    rw [Number.safeFrom?, if_pos ⟨Int.ofNat_le.2 h.1, Int.ofNat_le.2 h.2⟩, Int.toNat_natCast]
  rw [integer, toNumber, Json.numberOf_nat, hsafe]

theorem uniqueIds_vals {ids : List BoundedId} (hlen : ids.length ≤ 1000) (hnodup : ids.Nodup) :
    uniqueIds (.arr (ids.map fun id => .str id.val)) = .ok ids := by
  have hmap : (ids.map fun id => Json.str id.val).mapM
      (fun value => boundedId (some value) "supersedes id") = .ok ids :=
    mapM_map_eq_ok fun id _ => boundedId_val id _
  rw [uniqueIds, rejectIf_of_not (by rw [List.length_map]; omega), ok_bind, hmap, ok_bind,
    rejectIf_of_not (not_not.2 hnodup)]
  rfl

theorem boundedText_ok {input : Option Json} {maxBytes : Nat} {label text : String}
    (h : boundedText input maxBytes label = .ok text) :
    input = some (.str text) ∧ boundedText (some (.str text)) maxBytes label = .ok text := by
  unfold boundedText at h
  split at h
  · next other =>
    have hcheck := h
    split at h
    · cases h
    · cases h
      refine ⟨rfl, ?_⟩
      rw [boundedText]
      exact hcheck
  · cases h

theorem uniqueIds_ok {input : Json} {ids : List BoundedId} (h : uniqueIds input = .ok ids) :
    ids.length ≤ 1000 ∧ ids.Nodup := by
  unfold uniqueIds at h
  split at h
  · simp only [bind_eq_ok, rejectIf_eq_ok, not_not] at h
    obtain ⟨_, hlen, ids', hids, _, hnodup, h⟩ := h
    cases h
    rw [length_mapM hids]
    exact ⟨Nat.not_lt.1 hlen, hnodup⟩
  · cases h

theorem AppendInput.ids_ok {input : AppendInput} {ids : List BoundedId} (h : input.ids = .ok ids) :
    ids.length ≤ 1000 ∧ ids.Nodup := by
  unfold AppendInput.ids at h
  split at h
  · exact uniqueIds_ok h
  · exact uniqueIds_ok h
  · exact uniqueIds_ok h

-- ===== text

def turnKeys : List String :=
  ["version", "id", "conversationId", "sequence", "role", "contentDigest", "content", "createdAt",
    "supersedes"]

theorem keys_sublist (turn : ConversationTurn) : (turn.fields.map Prod.fst).Sublist turnKeys := by
  have hoption : ∀ (key : String) (value : Option Json),
      (((value.map fun v => (key, v)).toList).map Prod.fst).Sublist [key] := by
    intro key value
    cases value with
    | none => exact List.nil_sublist _
    | some v => exact List.Sublist.refl _
  have hcontent := hoption "content" (turn.content.map .str)
  have hids := hoption "supersedes" (turn.supersedes.map fun ids => .arr (ids.map fun id => .str id.val))
  rw [Option.map_map] at hcontent hids
  rw [ConversationTurn.fields, List.map_append, List.map_append, List.map_append]
  exact (((List.Sublist.refl _).append hcontent).append (List.Sublist.refl _)).append hids

theorem ConversationTurn.Valid.parsed {turn : ConversationTurn} (h : turn.Valid platform) :
    Json.Parsed platform.renderNumber (.obj turn.fields) := by
  have hsub := keys_sublist turn
  have hkeys : ∀ key ∈ turnKeys, Json.arrayIndex? key = none := by decide
  refine .obj (hsub.nodup (by decide)) ?_ ?_
  · refine @Json.ownOrder_append [] _ (fun _ hf => (nomatch hf)) .nil ?_
    intro f hf
    exact hkeys f.1 (hsub.subset (List.mem_map_of_mem hf))
  · intro f hf
    simp only [ConversationTurn.fields, List.mem_append, List.mem_cons, List.not_mem_nil, or_false,
      Option.mem_toList, Option.map_eq_some_iff] at hf
    rcases hf with ((hf | ⟨content, -, rfl⟩) | rfl) | ⟨ids, -, rfl⟩
    · rcases hf with rfl | rfl | rfl | rfl | rfl | rfl
      · exact Json.parsed_nat (by decide)
      · exact .str _
      · exact .str _
      · exact Json.parsed_nat h.sequence.2
      · exact .str _
      · exact .str _
    · exact .str _
    · exact .str _
    · refine .arr ?_
      intro item hitem
      obtain ⟨id, -, rfl⟩ := List.mem_map.1 hitem
      exact .str _

theorem parse_text {turn : ConversationTurn} (h : turn.Valid platform) :
    Json.parse platform.renderNumber turn.text = some (.obj turn.fields) :=
  Json.parse_stringify h.parsed

theorem parseTurn_text {turn : ConversationTurn} (h : turn.Valid platform) :
    parseTurn platform turn.text turn.sequence = .ok turn := by
  have hfield : ∀ key value, (turn.fields.find? fun f => f.1 == key) = some (key, value) →
      (Json.obj turn.fields).field? key = some value := by
    intro key value hfind
    rw [Json.field?, hfind]
    rfl
  have hversion := hfield "version" (.num (toString 1)) (by simp [ConversationTurn.fields])
  have hid := hfield "id" (.str turn.id.val) (by simp [ConversationTurn.fields])
  have hconversation := hfield "conversationId" (.str turn.conversationId.val)
    (by simp [ConversationTurn.fields])
  have hsequence := hfield "sequence" (.num (toString turn.sequence))
    (by simp [ConversationTurn.fields])
  have hrole := hfield "role" (.str turn.role.text) (by simp [ConversationTurn.fields])
  have hdigest := hfield "contentDigest" (.str turn.contentDigest.val)
    (by simp [ConversationTurn.fields])
  have hcreated := hfield "createdAt" (.str turn.createdAt.isoText) (by
    cases hc : turn.content with
    | _ => simp [ConversationTurn.fields, hc])
  have hcontent : (Json.obj turn.fields).field? "content" = turn.content.map .str := by
    cases hc : turn.content with
    | none =>
      cases hs : turn.supersedes with
      | _ => simp [ConversationTurn.fields, Json.field?, hc, hs]
    | some content => simp [ConversationTurn.fields, Json.field?, hc]
  have hsupersedes : (Json.obj turn.fields).field? "supersedes"
      = turn.supersedes.map fun ids => .arr (ids.map fun id => .str id.val) := by
    cases hc : turn.content with
    | _ =>
      cases hs : turn.supersedes with
      | _ => simp [ConversationTurn.fields, Json.field?, hc, hs]
  have hcontentOk : ((turn.content.map Json.str).mapM fun content =>
      boundedText (some content) maxTurnBytes "content") = .ok turn.content := by
    cases hc : turn.content with
    | none => rfl
    | some content =>
      show boundedText (some (.str content)) maxTurnBytes "content" >>= (fun b => .ok (some b)) = _
      rw [(h.content content hc).1]
      rfl
  have hsupersedesOk : ((turn.supersedes.map fun ids => Json.arr (ids.map fun id => .str id.val)).mapM
      uniqueIds) = .ok turn.supersedes := by
    cases hs : turn.supersedes with
    | none => rfl
    | some ids =>
      obtain ⟨hlen, hnodup⟩ := h.supersedes ids hs
      show uniqueIds _ >>= (fun b => .ok (some b)) = _
      rw [uniqueIds_vals hlen hnodup]
      rfl
  have hsame : ¬ turn.content.any (fun text => text != "" && platform.sha256 text != turn.contentDigest)
      = true := by
    rw [Option.any_eq_true]
    rintro ⟨content, hc, hbad⟩
    rw [(h.content content hc).2] at hbad
    simp at hbad
  rw [parseTurn, parse_text h]
  simp only [hversion, hid, hconversation, hsequence, hrole, hdigest, hcreated, hcontent, hsupersedes,
    boundedId_val, integer_sequence h.sequence, validRole_text, digest_val, hcontentOk,
    iso_text h.createdAt, hsupersedesOk, ok_bind]
  rw [rejectIf_of_not (by decide), ok_bind, rejectIf_of_not (not_not.2 rfl), ok_bind,
    rejectIf_of_not hsame]
  rfl

theorem newline_not_mem_text {turn : ConversationTurn} (h : turn.Valid platform) :
    '\n' ∉ turn.text := by
  intro hmem
  exact absurd (h.parsed.wellFormed.printable _ hmem) (by decide)

theorem text_eq (turn : ConversationTurn) : ∃ body, turn.text = '\x7b' :: (body ++ ['\x7d']) :=
  ⟨_, Json.toList_stringify_obj turn.fields⟩

theorem text_ne_nil (turn : ConversationTurn) : turn.text ≠ [] := by
  obtain ⟨body, hbody⟩ := text_eq turn
  rw [hbody]
  exact List.cons_ne_nil _ _

-- ===== lines

def ledgerText (turns : List ConversationTurn) : List Char :=
  turns.flatMap ConversationTurn.line

theorem ledgerText_append (turns : List ConversationTurn) (turn : ConversationTurn) :
    ledgerText (turns ++ [turn]) = ledgerText turns ++ turn.line := by
  rw [ledgerText, List.flatMap_append, List.flatMap_cons, List.flatMap_nil, List.append_nil]
  rfl

theorem intercalate_lines (turns : List ConversationTurn) (last : List Char) :
    ['\n'].intercalate (turns.map ConversationTurn.text ++ [last]) = ledgerText turns ++ last := by
  induction turns with
  | nil =>
    rw [List.map_nil, List.nil_append, List.intercalate_singleton]
    rfl
  | cons first turns ih =>
    have hne : turns.map ConversationTurn.text ++ [last] ≠ [] := by simp
    obtain ⟨next, rest, hrest⟩ := List.exists_cons_of_ne_nil hne
    rw [List.map_cons, List.cons_append, hrest, List.intercalate_cons_cons, ← hrest, ih]
    show first.text ++ ['\n'] ++ (ledgerText turns ++ last) = _
    rw [← List.append_assoc]
    rfl

theorem trimEnd_append {text blanks : List Char} {c : Char} (hc : isBlank c = false)
    (hblanks : ∀ b ∈ blanks, isBlank b = true) : trimEnd (text ++ [c] ++ blanks) = text ++ [c] := by
  have hrest : (c :: text.reverse).dropWhile isBlank = c :: text.reverse :=
    List.dropWhile_cons_of_neg (by rw [hc]; decide)
  rw [trimEnd, List.reverse_append, List.dropWhile_append_of_pos, List.reverse_append,
    List.reverse_singleton, List.singleton_append, hrest, List.reverse_cons, List.reverse_reverse]
  intro b hb
  exact hblanks b (List.mem_reverse.1 hb)

theorem splitOn_ledger (turns : List ConversationTurn) {last : List Char} {c : Char}
    (blanks : List Char)
    (h : ∀ t ∈ turns, t.Valid platform) (hlast : '\n' ∉ last ++ [c]) (hc : isBlank c = false)
    (hblanks : ∀ b ∈ blanks, isBlank b = true) :
    (trimEnd (ledgerText turns ++ (last ++ [c]) ++ blanks)).splitOn '\n'
    = turns.map ConversationTurn.text ++ [last ++ [c]] := by
  have htrim : trimEnd (ledgerText turns ++ (last ++ [c]) ++ blanks)
      = ledgerText turns ++ (last ++ [c]) := by
    rw [← List.append_assoc]
    exact trimEnd_append hc hblanks
  rw [htrim, ← intercalate_lines]
  apply List.splitOn_intercalate
  · intro line hline
    rcases List.mem_append.1 hline with hline | hline
    · obtain ⟨t, ht, rfl⟩ := List.mem_map.1 hline
      exact newline_not_mem_text (h t ht)
    · rw [List.mem_singleton.1 hline]
      exact hlast
  · simp

theorem mapM_parseTurn {turns : List ConversationTurn} {k : Nat}
    (hvalid : ∀ t ∈ turns, t.Valid platform)
    (hsequence : Consecutive ConversationTurn.sequence (k + 1) turns) :
    ((turns.map ConversationTurn.text).zipIdx k).mapM
        (fun (line, index) => parseTurn platform line (index + 1)) = .ok turns := by
  induction turns generalizing k with
  | nil => rfl
  | cons turn turns ih =>
    obtain ⟨hrest, hfirst⟩ := hsequence.tail
    have hread := parseTurn_text (hvalid turn (List.mem_cons_self ..))
    rw [hfirst] at hread
    rw [List.map_cons, List.zipIdx_cons, List.mapM_cons]
    dsimp only
    rw [hread, ok_bind, ih (fun t ht => hvalid t (List.mem_cons_of_mem _ ht)) hrest]
    rfl

theorem checkTurns_append {conversationId : BoundedId} {turns : List ConversationTurn}
    {turn : ConversationTurn} {i : Nat} {ids : List BoundedId}
    (h : checkTurns conversationId i ids turns = .ok ())
    (hconversation : turn.conversationId = conversationId)
    (hsequence : turn.sequence = i + turns.length + 1)
    (hid : turn.id ∉ ids ++ turns.map ConversationTurn.id)
    (hsupersedes : ∀ id ∈ turn.supersedes.getD [], id ∈ ids ++ turns.map ConversationTurn.id) :
    checkTurns conversationId i ids (turns ++ [turn]) = .ok () := by
  induction turns generalizing i ids with
  | nil =>
    rw [List.map_nil, List.append_nil] at hid hsupersedes
    have hnext : turn.sequence = i + 1 := hsequence
    rw [List.nil_append, checkTurns, rejectIf_of_not (not_not.2 hconversation), ok_bind,
      rejectIf_of_not (not_not.2 hnext), ok_bind, rejectIf_of_not hid, ok_bind,
      rejectIf_of_not, ok_bind, checkTurns]
    intro ⟨id, hmem, hnot⟩
    exact hnot (hsupersedes id hmem)
  | cons first turns ih =>
    simp only [checkTurns, bind_eq_ok, rejectIf_eq_ok] at h
    obtain ⟨_, h1, _, h2, _, h3, _, h4, h⟩ := h
    rw [List.cons_append, checkTurns, rejectIf_of_not h1, ok_bind, rejectIf_of_not h2, ok_bind,
      rejectIf_of_not h3, ok_bind, rejectIf_of_not h4, ok_bind]
    have hids : ids ++ (first :: turns).map ConversationTurn.id
        = (ids ++ [first.id]) ++ turns.map ConversationTurn.id := by
      rw [List.map_cons, List.append_assoc, List.singleton_append]
    rw [hids] at hid hsupersedes
    apply ih h _ hid hsupersedes
    rw [hsequence, List.length_cons]
    omega

end OperatorRuntime.Conversation
