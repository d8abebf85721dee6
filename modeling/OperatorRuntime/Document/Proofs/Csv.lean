/-
What CSV extraction makes of a rendered table. Lines are cut before
quotes are read, so a cell comes back whole exactly where no line break is
in it (`rows_of_rendering_iff`); a carriage return alone is no line break.
A bare cell that begins the document loses a byte order mark.
-/
import OperatorRuntime.Document.DocumentData

namespace OperatorRuntime.Document

-- ===== renderings

/-- A cell as it is written: bare, or in quotes with its own quotes
doubled. -/
structure Written where
  value : Cell
  quoted : Bool
  bare : quoted = false → ∀ c ∈ value, c ≠ ',' ∧ c ≠ '"' ∧ c ≠ '\r' ∧ c ≠ '\n'

def doubled (c : Char) : List Char :=
  if c = '"' then ['"', '"'] else [c]

def Written.write (cell : Written) : List Char :=
  if cell.quoted = true then '"' :: (cell.value.flatMap doubled ++ ['"']) else cell.value

/-- A row is written as its cells with commas between them. A single empty
bare cell would be an empty line. -/
structure Row where
  cells : List Written
  nonempty : cells ≠ []
  notBlank : ∀ cell, cells = [cell] → cell.write ≠ []

def Row.write (row : Row) : List Char :=
  [','].intercalate (row.cells.map Written.write)

inductive Ending
  | lf
  | crlf

def Ending.write : Ending → List Char
  | .lf => ['\n']
  | .crlf => ['\r', '\n']

/-- A table as it is written. The last row may lack its line break. -/
structure Rendering where
  ended : List (Row × Ending)
  last : Option Row

def Rendering.rows (rendering : Rendering) : List Row :=
  rendering.ended.map Prod.fst ++ rendering.last.toList

def Rendering.table (rendering : Rendering) : List (List Cell) :=
  rendering.rows.map fun row => row.cells.map Written.value

def Rendering.write (rendering : Rendering) : List Char :=
  rendering.ended.flatMap (fun row => row.1.write ++ row.2.write)
    ++ rendering.last.elim [] Row.write

-- ===== lines

/-- A line as it is cut out of a text. -/
structure Whole (line : List Char) : Prop where
  unbroken : '\n' ∉ line
  unreturned : line.getLast? ≠ some '\r'

theorem splitLines_cons {c : Char} {rest : List Char} (hbreak : c ≠ '\n')
    (hreturn : c = '\r' → ∀ after, rest ≠ '\n' :: after) :
    splitLines (c :: rest) = (splitLines rest).modifyHead (c :: ·) := by
  rw [splitLines.eq_def]
  split
  · next heq => cases heq
  · next after heq =>
    obtain ⟨rfl, rfl⟩ := List.cons.inj heq
    exact absurd rfl (hreturn rfl after)
  · next d after hno heq =>
    obtain ⟨rfl, rfl⟩ := List.cons.inj heq
    rw [if_neg hbreak]

theorem splitLines_whole {line : List Char} (h : '\n' ∉ line) : splitLines line = [line] := by
  induction line with
  | nil => rfl
  | cons c line ih =>
    rw [List.mem_cons, not_or] at h
    obtain ⟨hc, hline⟩ := h
    rw [splitLines_cons (Ne.symm hc), ih hline]
    · rfl
    · rintro - after rfl
      exact hline (List.mem_cons_self ..)

theorem splitLines_ended {line : List Char} (h : Whole line) (ending : Ending) (rest : List Char) :
    splitLines (line ++ (ending.write ++ rest)) = line :: splitLines rest := by
  induction line with
  | nil =>
    cases ending with
    | lf => rfl
    | crlf => rfl
  | cons c line ih =>
    have hunbroken := h.unbroken
    rw [List.mem_cons, not_or] at hunbroken
    obtain ⟨hc, hline⟩ := hunbroken
    have htail : Whole line := by
      refine ⟨hline, ?_⟩
      intro hlast
      apply h.unreturned
      rw [List.getLast?_cons, hlast]
      rfl
    rw [List.cons_append, splitLines_cons (Ne.symm hc), ih htail]
    · rfl
    · intro hreturn after heq
      cases line with
      | nil => exact h.unreturned (by rw [hreturn]; rfl)
      | cons d line =>
        rw [List.cons_append] at heq
        exact hline ((List.cons.inj heq).1 ▸ List.mem_cons_self ..)

theorem splitLines_unbroken (text : List Char) : ∀ line ∈ splitLines text, '\n' ∉ line := by
  fun_induction splitLines text with
  | case1 => simp
  | case2 rest ih => simpa using ih
  | case3 rest hno ih => simpa using ih
  | case4 c rest hno hc ih =>
    cases hsplit : splitLines rest with
    | nil => simp
    | cons line lines =>
      rw [hsplit] at ih
      intro line' hin
      rcases List.mem_cons.1 hin with rfl | hin
      · rw [List.mem_cons, not_or]
        exact ⟨Ne.symm hc, ih line (List.mem_cons_self ..)⟩
      · exact ih line' (List.mem_cons_of_mem _ hin)

-- ===== cells

theorem parseCells_bare {value : Cell} (h : ∀ c ∈ value, c ≠ ',' ∧ c ≠ '"') (cell : Cell)
    (rest : List Char) :
    parseCells false cell (value ++ rest) = parseCells false (cell ++ value) rest := by
  induction value generalizing cell with
  | nil => rw [List.nil_append, List.append_nil]
  | cons c value ih =>
    obtain ⟨hcomma, hquote⟩ := h c (List.mem_cons_self ..)
    rw [List.cons_append, parseCells, if_neg hquote, if_neg hcomma,
      ih fun d hd => h d (List.mem_cons_of_mem _ hd), List.append_assoc, List.singleton_append]

theorem parseCells_quoted (value cell : Cell) {rest : List Char}
    (h : ∀ after, rest ≠ '"' :: after) : parseCells true cell (value.flatMap doubled ++ '"' :: rest)
    = parseCells false (cell ++ value) rest := by
  induction value generalizing cell with
  | nil =>
    rw [List.flatMap_nil, List.nil_append, List.append_nil, parseCells, if_pos rfl]
    rintro after - rfl
    exact h after rfl
  | cons c value ih =>
    rw [List.flatMap_cons]
    by_cases hquote : c = '"'
    · subst hquote
      show parseCells true cell ('"' :: '"' :: (value.flatMap doubled ++ '"' :: rest)) = _
      rw [parseCells, ih, List.append_assoc, List.singleton_append]
    · rw [doubled, if_neg hquote, List.append_assoc, List.singleton_append, parseCells,
        if_neg hquote, ih, List.append_assoc, List.singleton_append]
      intro after hc
      exact absurd hc hquote

theorem parseCells_written (cell : Written) {rest : List Char} (h : ∀ after, rest ≠ '"' :: after) :
    parseCells false [] (cell.write ++ rest) = parseCells false cell.value rest := by
  rw [Written.write]
  by_cases hquoted : cell.quoted = true
  · rw [if_pos hquoted, List.cons_append, List.append_assoc, List.singleton_append, parseCells,
      if_pos rfl, parseCells_quoted _ _ h, List.nil_append]
  · rw [if_neg hquoted]
    have hbare := cell.bare (Bool.eq_false_iff.2 hquoted)
    rw [parseCells_bare (fun c hc => ⟨(hbare c hc).1, (hbare c hc).2.1⟩), List.nil_append]

theorem parseCsvLine_intercalate {cells : List Written} (h : cells ≠ []) :
    parseCsvLine ([','].intercalate (cells.map Written.write)) = cells.map Written.value := by
  induction cells with
  | nil => exact absurd rfl h
  | cons cell cells ih =>
    cases cells with
    | nil =>
      have hparse : parseCells false [] (cell.write ++ []) = parseCells false cell.value [] :=
        parseCells_written cell fun after heq => by cases heq
      rw [List.append_nil] at hparse
      rw [List.map_cons, List.map_nil, List.intercalate_singleton, parseCsvLine, hparse]
      rfl
    | cons cell' cells =>
      have hrest := ih (List.cons_ne_nil _ _)
      rw [List.map_cons, List.map_cons, List.intercalate_cons_cons, parseCsvLine,
        List.append_assoc, List.singleton_append,
        parseCells_written cell (fun after heq => absurd (List.cons.inj heq).1 (by decide)),
        parseCells, if_neg (by decide), if_pos rfl]
      rw [List.map_cons, parseCsvLine] at hrest
      rw [hrest]
      rfl

theorem parseCsvLine_write (row : Row) : parseCsvLine row.write = row.cells.map Written.value :=
  parseCsvLine_intercalate row.nonempty

theorem mem_of_mem_parseCells (quoted : Bool) (cell : Cell) (line : List Char) :
    ∀ value ∈ parseCells quoted cell line, ∀ c ∈ value, c ∈ cell ∨ c ∈ line := by
  fun_induction parseCells quoted cell line with
  | case1 quoted cell => simp +contextual
  | case2 cell rest ih => grind
  | case3 cell rest hno ih => grind
  | case4 cell c rest hno hc ih => grind
  | case5 cell rest ih => grind
  | case6 cell rest ih => grind
  | case7 cell c rest hquote hcomma ih => grind

theorem parseCells_cons (quoted : Bool) (a : Char) (cell : Cell) (line : List Char) :
    parseCells quoted (a :: cell) line = (parseCells quoted cell line).modifyHead (a :: ·) := by
  fun_induction parseCells quoted cell line with
  | case1 quoted cell => rfl
  | case2 cell rest ih => rw [parseCells, List.cons_append, ih]
  | case3 cell rest hno ih => 
    rw [parseCells, if_pos rfl, ih]
    exact hno
  | case4 cell c rest hno hc ih =>
    rw [parseCells, if_neg hc, List.cons_append, ih]
    exact hno
  | case5 cell rest ih => rw [parseCells, if_pos rfl, ih]
  | case6 cell rest ih => rw [parseCells, if_neg (by decide), if_pos rfl]; rfl
  | case7 cell c rest hquote hcomma ih =>
    rw [parseCells, if_neg hquote, if_neg hcomma, List.cons_append, ih]

-- ===== rows

theorem mem_write {cell : Written} {c : Char} (h : c ∈ cell.write) : c = '"' ∨ c ∈ cell.value := by
  rw [Written.write] at h
  split at h
  · rw [List.mem_cons, List.mem_append, List.mem_flatMap, List.mem_singleton] at h
    rcases h with heq | ⟨d, hd, hc⟩ | heq
    · exact .inl heq
    · rw [doubled] at hc
      split at hc
      · simp only [List.mem_cons, List.not_mem_nil, or_false, or_self] at hc
        exact .inl hc
      · exact .inr (List.mem_singleton.1 hc ▸ hd)
    · exact .inl heq
  · exact .inr h

theorem write_unreturned (cell : Written) : cell.write.getLast? ≠ some '\r' := by
  rw [Written.write]
  split
  · rw [← List.cons_append, List.getLast?_concat]
    simp
  · next hquoted =>
    intro hlast
    have hbare := cell.bare (Bool.eq_false_iff.2 hquoted) '\r' (List.mem_of_getLast? hlast)
    exact hbare.2.2.1 rfl

theorem whole_intercalate {cells : List Written} (h : ∀ cell ∈ cells, '\n' ∉ cell.value) :
    Whole ([','].intercalate (cells.map Written.write)) := by
  induction cells with
  | nil => exact ⟨List.not_mem_nil, by simp⟩
  | cons cell cells ih =>
    have hrest := ih fun cell' hin => h cell' (List.mem_cons_of_mem _ hin)
    have hcell : '\n' ∉ cell.write := by
      intro hin
      rcases mem_write hin with heq | hin
      · exact absurd heq (by decide)
      · exact h cell (List.mem_cons_self ..) hin
    cases cells with
    | nil =>
      rw [List.map_cons, List.map_nil, List.intercalate_singleton]
      exact ⟨hcell, write_unreturned cell⟩
    | cons cell' cells =>
      rw [List.map_cons] at hrest
      rw [List.map_cons, List.map_cons, List.intercalate_cons_cons]
      refine ⟨?_, ?_⟩
      · simp only [List.mem_append, List.mem_singleton, not_or]
        exact ⟨⟨hcell, by decide⟩, hrest.unbroken⟩
      · rw [List.getLast?_append]
        cases hlast : ([','].intercalate (cell'.write :: cells.map Written.write)).getLast? with
        | none => simp
        | some c =>
          rw [Option.some_or, ← hlast]
          exact hrest.unreturned

theorem write_ne_nil (row : Row) : row.write ≠ [] := by
  rw [Row.write]
  cases hcells : row.cells with
  | nil => exact absurd hcells row.nonempty
  | cons cell cells =>
    cases cells with
    | nil =>
      rw [List.map_cons, List.map_nil, List.intercalate_singleton]
      exact row.notBlank cell hcells
    | cons cell' cells =>
      rw [List.map_cons, List.map_cons, List.intercalate_cons_cons]
      simp

theorem splitLines_write {ended : List (Row × Ending)} (hended : ∀ row ∈ ended, Whole row.1.write)
    {last : Option Row} (hlast : ∀ row ∈ last, Whole row.write) :
    splitLines (ended.flatMap (fun row => row.1.write ++ row.2.write) ++ last.elim [] Row.write)
    = ended.map (fun row => row.1.write) ++ [last.elim [] Row.write] := by
  induction ended with
  | nil =>
    cases last with
    | none => rfl
    | some row => exact splitLines_whole (hlast row rfl).unbroken
  | cons row ended ih =>
    rw [List.flatMap_cons, List.append_assoc, List.append_assoc,
      splitLines_ended (hended row (List.mem_cons_self ..)),
      ih fun row' hin => hended row' (List.mem_cons_of_mem _ hin)]
    rfl

/-- `text.split(/\r?\n/).filter(Boolean)`. -/
def sourceLines (text : List Char) : List (List Char) :=
  (splitLines text).filter fun line => !line.isEmpty

/-- The rows of a text without a byte order mark. -/
def rowsOf (text : List Char) : List (List Cell) :=
  ((sourceLines text).take 10000).map parseCsvLine

theorem filter_rows (rows : List Row) :
    (rows.map Row.write).filter (fun line => !line.isEmpty) = rows.map Row.write := by
  rw [List.filter_eq_self]
  intro line hin
  obtain ⟨row, -, rfl⟩ := List.mem_map.1 hin
  simpa using write_ne_nil row

theorem sourceLines_write {rendering : Rendering}
    (h : ∀ row ∈ rendering.table, ∀ cell ∈ row, '\n' ∉ cell) :
    sourceLines rendering.write = rendering.rows.map Row.write := by
  have hwhole : ∀ row ∈ rendering.rows, Whole row.write := by
    intro row hrow
    apply whole_intercalate
    intro cell hcell
    exact h _ (List.mem_map_of_mem hrow) _ (List.mem_map_of_mem hcell)
  have hended : ∀ row ∈ rendering.ended, Whole row.1.write := fun row hrow =>
    hwhole _ (List.mem_append_left _ (List.mem_map_of_mem hrow))
  have hlast : ∀ row ∈ rendering.last, Whole row.write := fun row hrow =>
    hwhole _ (List.mem_append_right _ (Option.mem_toList.2 hrow))
  have hsplit := splitLines_write hended hlast
  rw [sourceLines, Rendering.write, hsplit, List.filter_append, Rendering.rows, List.map_append]
  congr 1
  · have hrows := filter_rows (rendering.ended.map Prod.fst)
    rwa [List.map_map] at hrows ⊢
  · cases rendering.last with
    | none => rfl
    | some row => exact filter_rows [row]

theorem map_parse_rows (rendering : Rendering) :
    (rendering.rows.map Row.write).map parseCsvLine = rendering.table := by
  rw [List.map_map]
  exact List.map_congr_left fun row _ => parseCsvLine_write row

theorem rowsOf_write {rendering : Rendering} (hrows : rendering.table.length ≤ 10000)
    (h : ∀ row ∈ rendering.table, ∀ cell ∈ row, '\n' ∉ cell) :
    rowsOf rendering.write = rendering.table := by
  rw [Rendering.table, List.length_map] at hrows
  rw [rowsOf, sourceLines_write h, List.take_of_length_le (by rwa [List.length_map]), map_parse_rows]

theorem rowsOf_unbroken (text : List Char) : ∀ row ∈ rowsOf text, ∀ cell ∈ row, '\n' ∉ cell := by
  intro row hrow cell hcell hbreak
  obtain ⟨line, hline, rfl⟩ := List.mem_map.1 hrow
  have hin := List.mem_of_mem_filter (List.mem_of_mem_take hline)
  rcases mem_of_mem_parseCells false [] line cell hcell _ hbreak with hnil | hbreak
  · cases hnil
  · exact splitLines_unbroken text line hin hbreak

theorem parseCells_ne_nil (quoted : Bool) (cell : Cell) (line : List Char) :
    parseCells quoted cell line ≠ [] := by
  fun_induction parseCells quoted cell line with
  | case1 quoted cell => exact List.cons_ne_nil _ _
  | case2 cell rest ih => exact ih
  | case3 cell rest hno ih => exact ih
  | case4 cell c rest hno hc ih => exact ih
  | case5 cell rest ih => exact ih
  | case6 cell rest ih => exact List.cons_ne_nil _ _
  | case7 cell c rest hquote hcomma ih => exact ih

theorem parseCsvLine_marked (line : List Char) :
    parseCsvLine (mark :: line) ≠ parseCsvLine line := by
  have hmark : parseCsvLine (mark :: line) = (parseCsvLine line).modifyHead (mark :: ·) := by
    rw [parseCsvLine, parseCells, if_neg (by decide), if_neg (by decide), List.nil_append,
      parseCells_cons]
    rfl
  rw [hmark]
  cases hcells : parseCsvLine line with
  | nil => exact absurd hcells (parseCells_ne_nil false [] line)
  | cons cell cells =>
    intro heq
    have hlength := congrArg List.length (List.cons.inj heq).1
    rw [List.length_cons] at hlength
    omega

theorem splitLines_ne_nil (text : List Char) : splitLines text ≠ [] := by
  fun_induction splitLines text with
  | case1 => exact List.cons_ne_nil _ _
  | case2 rest ih => exact List.cons_ne_nil _ _
  | case3 rest hno ih => exact List.cons_ne_nil _ _
  | case4 c rest hno hc ih => simpa using ih

theorem filter_cons_cons (c : Char) (line : List Char) (lines : List (List Char)) :
    ((c :: line) :: lines).filter (fun line => !line.isEmpty)
    = (c :: line) :: lines.filter fun line => !line.isEmpty := rfl

theorem rowsOf_marked (text : List Char)
    (h : ((sourceLines (mark :: text)).map parseCsvLine).length ≤ 10000) :
    rowsOf text ≠ (sourceLines (mark :: text)).map parseCsvLine := by
  have hsplit : splitLines (mark :: text) = (splitLines text).modifyHead (mark :: ·) :=
    splitLines_cons (by decide) fun hreturn => absurd hreturn (by decide)
  have hmarked : sourceLines (mark :: text)
      = ((splitLines text).modifyHead (mark :: ·)).filter fun line => !line.isEmpty := by
    rw [sourceLines, hsplit]
  rw [hmarked] at h ⊢
  rw [rowsOf, sourceLines]
  cases hlines : splitLines text with
  | nil => exact absurd hlines (splitLines_ne_nil text)
  | cons line lines =>
    rw [hlines] at h
    rw [List.modifyHead_cons, filter_cons_cons, List.map_cons] at h ⊢
    rw [List.length_cons, List.length_map] at h
    cases line with
    | nil =>
      rw [List.filter_cons_of_neg (by decide), List.take_of_length_le (by omega)]
      intro heq
      have hlength := congrArg List.length heq
      rw [List.length_cons] at hlength
      omega
    | cons c line =>
      rw [filter_cons_cons, List.take_of_length_le, List.map_cons]
      · intro heq
        exact parseCsvLine_marked (c :: line) (List.cons.inj heq).1.symm
      · exact h

-- ===== results

def unmarked : List Char → List Char
  | [] => []
  | c :: rest => if c = mark then rest else c :: rest

theorem utf8_encode (text : List Char) : utf8 text.utf8Encode = .ok (unmarked text) := by
  rw [utf8, List.utf8Decode?_utf8Encode]
  cases text with
  | nil => rfl
  | cons c rest => rfl

theorem byteLength_unmarked (text : List Char) : byteLength (unmarked text) ≤ byteLength text := by
  cases text with
  | nil => exact Nat.le_refl _
  | cons c rest =>
    rw [unmarked]
    split
    · rw [byteLength, byteLength, List.map_cons, List.sum_cons]
      omega
    · exact Nat.le_refl _

theorem extract_rows {text : List Char} (h : byteLength text ≤ maxExtractBytes) :
    (extract text.utf8Encode).map Extracted.rows = .ok (rowsOf (unmarked text)) := by
  have hwithin := (byteLength_unmarked text).trans h
  rw [extract, utf8_encode, ok_bind, boundedText, if_pos hwithin]
  rfl

/-- Exactly a table whose cells have no line breaks is recovered from what
it is rendered to, unless the rendering begins with a byte order mark. -/
theorem rows_of_rendering_iff (rendering : Rendering) (hrows : rendering.table.length ≤ 10000)
    (hsize : byteLength rendering.write ≤ maxExtractBytes) :
    (extract rendering.write.utf8Encode).map Extracted.rows = .ok rendering.table
    ↔ (∀ row ∈ rendering.table, ∀ cell ∈ row, '\n' ∉ cell)
      ∧ rendering.write.head? ≠ some mark := by
  rw [extract_rows hsize, Except.ok.injEq]
  constructor
  · intro heq
    have hunbroken : ∀ row ∈ rendering.table, ∀ cell ∈ row, '\n' ∉ cell := by
      rw [← heq]
      exact rowsOf_unbroken _
    refine ⟨hunbroken, ?_⟩
    intro hhead
    obtain ⟨rest, hwrite⟩ := List.head?_eq_some_iff.1 hhead
    have hlines : (sourceLines (mark :: rest)).map parseCsvLine = rendering.table := by
      rw [← hwrite, sourceLines_write hunbroken, map_parse_rows]
    rw [hwrite, unmarked, if_pos rfl, ← hlines] at heq
    rw [← hlines] at hrows
    exact rowsOf_marked rest hrows heq
  · rintro ⟨hunbroken, hhead⟩
    have hsame : unmarked rendering.write = rendering.write := by
      cases hwrite : rendering.write with
      | nil => rfl
      | cons c rest =>
        rw [hwrite, List.head?_cons] at hhead
        exact if_neg fun hc => hhead (congrArg some hc)
    rw [hsame, rowsOf_write hrows hunbroken]

def quotedCell (value : Cell) : Rendering where
  ended := [({
    cells := [{ value, quoted := true, bare := fun h => nomatch h }]
    nonempty := List.cons_ne_nil _ _
    notBlank := by
      intro cell heq
      rw [← (List.cons.inj heq).1]
      exact List.cons_ne_nil _ _ }, .lf)]
  last := none

/-- A comma, a quote and a carriage return in one cell. -/
theorem quoted_comma_recovered :
    (extract (quotedCell "a,\"b\r".toList).write.utf8Encode).map Extracted.rows
    = .ok [["a,\"b\r".toList]] :=
  (rows_of_rendering_iff (quotedCell "a,\"b\r".toList) (by decide) (by decide)).2
    ⟨by decide, by decide⟩

/-- A line break within a cell ends its row. -/
theorem broken_cell_lost : (quotedCell "a\nb".toList).write = "\"a\nb\"\n".toList
    ∧ (extract (quotedCell "a\nb".toList).write.utf8Encode).map Extracted.rows
      = .ok [["a".toList], ["b".toList]]
    ∧ ¬ ∀ rendering : Rendering, rendering.table.length ≤ 10000 →
      byteLength rendering.write ≤ maxExtractBytes →
      (extract rendering.write.utf8Encode).map Extracted.rows = .ok rendering.table := by
  have hsize : byteLength (quotedCell "a\nb".toList).write ≤ maxExtractBytes := by decide
  have hrows : (extract (quotedCell "a\nb".toList).write.utf8Encode).map Extracted.rows
      = .ok [["a".toList], ["b".toList]] := by
    rw [extract_rows hsize]
    exact congrArg Except.ok (by decide)
  refine ⟨by decide, hrows, ?_⟩
  intro hall
  have hsame := hall (quotedCell "a\nb".toList) (by decide) hsize
  rw [hrows] at hsame
  exact absurd (Except.ok.inj hsame) (by decide)

end OperatorRuntime.Document
