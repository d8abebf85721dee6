/-
Reading ZIP archives. A read is preceded by the check that its record lies in the
buffer, so what is thrown is an archive error or what `inflateRawSync` threw
(`zipReadEntry_throws`); and an archive as it is written, with any values in the
fields that the reader ignores, is read back (`zipEntries_archive`).
-/
import OperatorRuntime.Document.DocumentData
import OperatorRuntime.Lib.Fallible

namespace OperatorRuntime.Document

open Lib

variable {b : Buffer} {e : ZipEntry} {inflateRawSync : Buffer → Nat → Result Buffer}

-- ===== errors

/-- What the reader throws on purpose. -/
def ArchiveError (e : OperatorError) : Prop :=
  e.code = .documentArchiveInvalid ∨ e.code = .documentArchiveTooLarge
    ∨ e.code = .documentArchiveCompressionUnsupported

/-- Only such errors are thrown. -/
def Throws (P : OperatorError → Prop) {α : Type} (x : Result α) : Prop :=
  ∀ e, x = .error e → P e

section
variable {P : OperatorError → Prop} {α β : Type}

theorem throws_ok (a : α) : Throws P (.ok a) := by
  intro e h
  cases h

theorem throws_fail {code : ErrorCode} {message : String} (h : P { code, message }) :
    Throws P (fail code message : Result α) := by
  intro e he
  cases he
  exact h

theorem throws_bind {x : Result α} {f : α → Result β}
    (hx : Throws P x) (hf : ∀ a, x = .ok a → Throws P (f a)) : Throws P (x >>= f) := by
  cases hcase : x with
  | error e =>
    intro e' he
    cases he
    exact hx e hcase
  | ok a => exact hf a hcase

theorem throws_rejectIf {bad : Prop} [Decidable bad] {code : ErrorCode} {message : String}
    (h : P { code, message }) : Throws P (rejectIf bad code message) := by
  rw [rejectIf]
  split
  · exact throws_fail h
  · exact throws_ok ()

theorem throws_read {width offset : ℕ} (h : offset + width ≤ b.length) :
    Throws P (readUIntLE width b offset) := by
  obtain ⟨n, hn⟩ := readLE_isSome h
  rw [readUIntLE, hn]
  exact throws_ok n

end

theorem hasRecord_throws {size signature p : ℕ} {P : OperatorError → Prop} (hsize : 4 ≤ size) :
    Throws P (hasRecord size signature b p) := by
  rw [hasRecord]
  split
  · exact throws_ok _
  · exact throws_bind (throws_read (by omega)) fun _ _ => throws_ok _

theorem le_of_hasRecord {size signature p : ℕ} (h : hasRecord size signature b p = .ok true) :
    p + size ≤ b.length := by
  by_contra hshort
  rw [hasRecord, if_pos (by omega)] at h
  cases h

theorem findEnd_throws {least n : ℕ} (h : n = 0 ∨ least + n + 21 ≤ b.length) :
    Throws ArchiveError (findEnd b least n) := by
  induction n with
  | zero => exact throws_ok none
  | succ n ih =>
    refine throws_bind (throws_read (by omega)) fun signature _ => ?_
    split
    · exact throws_ok _
    · exact ih (.inr (by omega))

theorem findEnd_bound {least n i : ℕ} (h : n = 0 ∨ least + n + 21 ≤ b.length)
    (hfound : findEnd b least n = .ok (some i)) : i + 22 ≤ b.length := by
  induction n with
  | zero => cases hfound
  | succ n ih =>
    rw [findEnd, bind_eq_ok] at hfound
    obtain ⟨signature, -, hfound⟩ := hfound
    split at hfound
    · cases hfound
      omega
    · exact ih (.inr (by omega)) hfound

theorem exists_read {width offset : ℕ} (h : offset + width ≤ b.length) :
    ∃ n, readUIntLE width b offset = .ok n := by
  obtain ⟨n, hn⟩ := readLE_isSome h
  exact ⟨n, by rw [readUIntLE, hn]⟩

theorem readCentral_throws (p : ℕ) : Throws ArchiveError (readCentral b p) := by
  rw [readCentral]
  refine throws_bind (hasRecord_throws (by omega)) ?_
  intro found hfound
  refine throws_bind (throws_rejectIf (.inl rfl)) ?_
  intro _ hrecord
  have hlength : p + 46 ≤ b.length := by
    cases found with
    | true => exact le_of_hasRecord hfound
    | false => exact absurd rfl (rejectIf_eq_ok.1 hrecord)
  obtain ⟨compression, h1⟩ := exists_read (b := b) (show p + 10 + 2 ≤ b.length by omega)
  obtain ⟨compressedSize, h2⟩ := exists_read (b := b) (show p + 20 + 4 ≤ b.length by omega)
  obtain ⟨uncompressedSize, h3⟩ := exists_read (b := b) (show p + 24 + 4 ≤ b.length by omega)
  obtain ⟨nameLen, h4⟩ := exists_read (b := b) (show p + 28 + 2 ≤ b.length by omega)
  obtain ⟨extraLen, h5⟩ := exists_read (b := b) (show p + 30 + 2 ≤ b.length by omega)
  obtain ⟨commentLen, h6⟩ := exists_read (b := b) (show p + 32 + 2 ≤ b.length by omega)
  obtain ⟨localOffset, h7⟩ := exists_read (b := b) (show p + 42 + 4 ≤ b.length by omega)
  simp only [h1, h2, h3, h4, h5, h6, h7, ok_bind]
  exact throws_bind (throws_rejectIf (.inl rfl)) fun _ _ => throws_ok _

theorem readEntries_throws (n p total : ℕ) : Throws ArchiveError (readEntries b n p total) := by
  induction n generalizing p total with
  | zero => exact throws_ok _
  | succ n ih =>
    refine throws_bind (readCentral_throws p) fun _ _ => ?_
    refine throws_bind (throws_rejectIf (.inr (.inl rfl))) fun _ _ => ?_
    exact throws_bind (ih _ _) fun _ _ => throws_ok _

theorem zipEntries_throws (b : Buffer) : Throws ArchiveError (zipEntries b) := by
  have hscan : b.length - 21 - (b.length - 65557) = 0
      ∨ b.length - 65557 + (b.length - 21 - (b.length - 65557)) + 21 ≤ b.length := by
    omega
  refine throws_bind (findEnd_throws hscan) fun eocd heocd => ?_
  cases eocd with
  | none => exact throws_fail (.inl rfl)
  | some eocd =>
    have hbound := findEnd_bound hscan heocd
    refine throws_bind (throws_read (by omega)) fun _ _ => ?_
    refine throws_bind (throws_read (by omega)) fun _ _ => ?_
    refine throws_bind (throws_rejectIf (.inr (.inl rfl))) fun _ _ => ?_
    exact readEntries_throws _ _ _

/-- An error that `inflateRawSync` threw at the entry. -/
def InflateError (inflateRawSync : Buffer → Nat → Result Buffer) (b : Buffer)
    (e : ZipEntry) (error : OperatorError) : Prop :=
  e.compression = 8 ∧ ∃ first last,
    inflateRawSync (subarray b first last) (min maxArchiveUncompressed (e.uncompressedSize + 1024))
      = .error error

theorem zipReadEntry_throws (inflateRawSync : Buffer → Nat → Result Buffer) (b : Buffer)
    (e : ZipEntry) :
    Throws (fun error => ArchiveError error ∨ InflateError inflateRawSync b e error)
      (zipReadEntry inflateRawSync b e) := by
  refine throws_bind (hasRecord_throws (by omega)) fun found hfound => ?_
  refine throws_bind (throws_rejectIf (.inl (.inl rfl))) fun _ hrecord => ?_
  have hlength : e.localOffset + 30 ≤ b.length := by
    cases found with
    | true => exact le_of_hasRecord hfound
    | false => exact absurd rfl (rejectIf_eq_ok.1 hrecord)
  refine throws_bind (throws_read (by omega)) fun _ _ => ?_
  refine throws_bind (throws_read (by omega)) fun _ _ => ?_
  refine throws_bind (throws_rejectIf (.inl (.inl rfl))) fun _ _ => ?_
  refine throws_bind ?_ fun _ _ => ?_
  · rw [decompress]
    split
    · exact throws_ok _
    · split
      · next hmethod =>
        intro error herror
        exact .inr ⟨hmethod, _, _, herror⟩
      · exact throws_fail (.inl (.inr (.inr rfl)))
  · exact throws_bind (throws_rejectIf (.inl (.inl rfl))) fun _ _ => throws_ok _

-- ===== sizes

theorem length_zipReadEntry {out : Buffer} (h : zipReadEntry inflateRawSync b e = .ok out) :
    out.length = e.uncompressedSize := by
  simp only [zipReadEntry, bind_eq_ok, rejectIf_eq_ok] at h
  obtain ⟨_, -, _, -, _, -, _, -, _, -, out', -, _, hlength, h⟩ := h
  cases h
  exact not_not.1 hlength

theorem readEntries_total {n p total : ℕ} {entries : List ZipEntry}
    (h : readEntries b n p total = .ok entries) (htotal : total ≤ maxArchiveUncompressed) :
    total + (entries.map (·.uncompressedSize)).sum ≤ maxArchiveUncompressed := by
  induction n generalizing p total entries with
  | zero =>
    cases h
    exact htotal
  | succ n ih =>
    simp only [readEntries, bind_eq_ok, rejectIf_eq_ok] at h
    obtain ⟨central, -, _, hlimit, rest, hrest, h⟩ := h
    cases h
    have hle := ih hrest (not_lt.1 hlimit)
    rw [List.map_cons, List.sum_cons]
    omega

def outputs (inflateRawSync : Buffer → Nat → Result Buffer) (b : Buffer)
    (entries : List ZipEntry) : List Buffer :=
  entries.filterMap fun e => (zipReadEntry inflateRawSync b e).toOption

theorem outputs_le (entries : List ZipEntry) :
    ((outputs inflateRawSync b entries).map List.length).sum
    ≤ (entries.map (·.uncompressedSize)).sum := by
  induction entries with
  | nil => exact le_refl _
  | cons e entries ih =>
    rw [List.map_cons, List.sum_cons]
    cases hread : zipReadEntry inflateRawSync b e with
    | error error =>
      rw [outputs, List.filterMap_cons_none (by rw [hread]; rfl)]
      exact le_trans ih (Nat.le_add_left _ _)
    | ok out =>
      rw [outputs, List.filterMap_cons_some (by rw [hread]; rfl), List.map_cons, List.sum_cons,
        length_zipReadEntry hread]
      exact Nat.add_le_add_left ih _

theorem zipEntries_total {entries : List ZipEntry} (h : zipEntries b = .ok entries) :
    ((outputs inflateRawSync b entries).map List.length).sum ≤ maxArchiveUncompressed := by
  rw [zipEntries, bind_eq_ok] at h
  obtain ⟨eocd, -, h⟩ := h
  cases eocd with
  | none => cases h
  | some eocd =>
    simp only [bind_eq_ok, rejectIf_eq_ok] at h
    obtain ⟨count, -, cdOffset, -, _, -, h⟩ := h
    have htotal := readEntries_total h (Nat.zero_le _)
    rw [Nat.zero_add] at htotal
    exact (outputs_le entries).trans htotal

-- ===== writing

/-- A stored file of an archive, with the fields that the reader ignores. -/
structure Member where
  name : List Char
  data : Buffer
  versionMade : ℕ
  versionNeeded : ℕ
  flags : ℕ
  time : ℕ
  date : ℕ
  crc32 : ℕ
  disk : ℕ
  internalAttributes : ℕ
  externalAttributes : ℕ
  localExtra : Buffer
  centralExtra : Buffer
  comment : Buffer

namespace Member

variable (m : Member)

def nameBytes : Buffer :=
  Utf8.encode m.name

def localFields : List (ℕ × ℕ) :=
  [(4, 0x04034b50), (2, m.versionNeeded), (2, m.flags), (2, 0), (2, m.time), (2, m.date),
    (4, m.crc32), (4, m.data.length), (4, m.data.length), (2, m.nameBytes.length),
    (2, m.localExtra.length)]

def localRecord : Buffer :=
  fieldBytes m.localFields ++ (m.nameBytes ++ (m.localExtra ++ m.data))

def centralFields (offset : ℕ) : List (ℕ × ℕ) :=
  [(4, 0x02014b50), (2, m.versionMade), (2, m.versionNeeded), (2, m.flags), (2, 0), (2, m.time),
    (2, m.date), (4, m.crc32), (4, m.data.length), (4, m.data.length), (2, m.nameBytes.length),
    (2, m.centralExtra.length), (2, m.comment.length), (2, m.disk), (2, m.internalAttributes),
    (4, m.externalAttributes), (4, offset)]

def centralRecord (offset : ℕ) : Buffer :=
  fieldBytes (m.centralFields offset) ++ (m.nameBytes ++ (m.centralExtra ++ m.comment))

/-- What the reader lists for it. -/
def entry (offset : ℕ) : ZipEntry where
  name := m.name
  compression := 0
  compressedSize := m.data.length
  uncompressedSize := m.data.length
  localOffset := offset

/-- A name that the reader takes, and parts that fit their length fields. -/
structure Safe : Prop where
  path : ¬ BadPath m.name
  nameBytes : m.nameBytes.length < 65536
  localExtra : m.localExtra.length < 65536
  centralExtra : m.centralExtra.length < 65536
  comment : m.comment.length < 65536

end Member

def localRecords (members : List Member) : Buffer :=
  members.flatMap Member.localRecord

def centralRecords : ℕ → List Member → Buffer
  | _, [] => []
  | offset, m :: members =>
    m.centralRecord offset ++ centralRecords (offset + m.localRecord.length) members

def endFields (members : List Member) : List (ℕ × ℕ) :=
  [(4, 0x06054b50), (2, 0), (2, 0), (2, members.length), (2, members.length),
    (4, (centralRecords 0 members).length), (4, (localRecords members).length), (2, 0)]

def archive (members : List Member) : Buffer :=
  localRecords members ++ (centralRecords 0 members ++ fieldBytes (endFields members))

def entriesOf : ℕ → List Member → List ZipEntry
  | _, [] => []
  | offset, m :: members => m.entry offset :: entriesOf (offset + m.localRecord.length) members

/-- Members within the limits of the reader. -/
structure Bounded (members : List Member) : Prop where
  count : members.length ≤ maxArchiveEntries
  safe : ∀ m ∈ members, m.Safe
  total : (members.map (·.data.length)).sum ≤ maxArchiveUncompressed

-- ===== reading back

variable {rest : Buffer} {fields : List (ℕ × ℕ)} {p : ℕ} {m : Member} {members : List Member}

theorem readUIntLE_field {width n k : ℕ} (i : ℕ) (h : b.drop p = fieldBytes fields ++ rest)
    (hfield : fields[i]? = some (width, n)) (hk : fieldOffset fields i = k) (hwidth : 0 < width)
    (hn : n < 256 ^ width) : readUIntLE width b (p + k) = .ok n := by
  rw [readUIntLE, ← hk, readLE_field hwidth h hfield, Nat.mod_eq_of_lt hn]

theorem hasRecord_fields {size signature : ℕ} (h : b.drop p = fieldBytes fields ++ rest)
    (hfield : fields[0]? = some (4, signature)) (hsignature : signature < 256 ^ 4)
    (hsize : size = (fieldBytes fields).length) (hpositive : 0 < size) :
    hasRecord size signature b p = .ok true := by
  have hlength := congrArg List.length h
  rw [List.length_drop, List.length_append] at hlength
  have hread := readUIntLE_field (k := 0) 0 h hfield rfl (by omega) hsignature
  rw [Nat.add_zero] at hread
  rw [hasRecord, if_neg (by omega), hread]
  simp

theorem subarray_of_drop {bytes : Buffer} {n : ℕ} (h : b.drop p = bytes ++ rest)
    (hn : n = bytes.length) : subarray b p (p + n) = bytes := by
  rw [subarray, List.drop_take, h, Nat.add_sub_cancel_left, hn, List.take_left]

theorem length_localFields : (fieldBytes m.localFields).length = 30 := by
  rw [length_fieldBytes]
  simp [Member.localFields]

theorem length_centralFields {offset : ℕ} : (fieldBytes (m.centralFields offset)).length = 46 := by
  rw [length_fieldBytes]
  simp [Member.centralFields]

theorem readCentral_record {offset : ℕ} (hsafe : m.Safe) (hdata : m.data.length < 256 ^ 4)
    (hoffset : offset < 256 ^ 4) (h : b.drop p = m.centralRecord offset ++ rest) :
    readCentral b p = .ok (m.entry offset, (m.centralRecord offset).length) := by
  rw [Member.centralRecord, List.append_assoc] at h
  have hname := hsafe.nameBytes
  have hextra := hsafe.centralExtra
  have hcomment := hsafe.comment
  have hbehind := drop_of_drop h
  rw [length_centralFields, List.append_assoc] at hbehind
  have hdecoded : Utf8.decode (subarray b (p + 46) (p + 46 + m.nameBytes.length)) = m.name := by
    rw [subarray_of_drop hbehind rfl, Member.nameBytes, Utf8.decode_encode]
  have hlength : (m.centralRecord offset).length
      = 46 + m.nameBytes.length + m.centralExtra.length + m.comment.length := by
    rw [Member.centralRecord, List.length_append, length_centralFields, List.length_append,
      List.length_append]
    omega
  have hrecord : hasRecord 46 0x02014b50 b p = .ok true :=
    hasRecord_fields h rfl (by omega) length_centralFields.symm (by omega)
  have hcompression : readUIntLE 2 b (p + 10) = .ok 0 :=
    readUIntLE_field 4 h rfl (by simp [fieldOffset, Member.centralFields]) (by omega) (by omega)
  have hcompressed : readUIntLE 4 b (p + 20) = .ok m.data.length :=
    readUIntLE_field 8 h rfl (by simp [fieldOffset, Member.centralFields]) (by omega) hdata
  have huncompressed : readUIntLE 4 b (p + 24) = .ok m.data.length :=
    readUIntLE_field 9 h rfl (by simp [fieldOffset, Member.centralFields]) (by omega) hdata
  have hnameLen : readUIntLE 2 b (p + 28) = .ok m.nameBytes.length :=
    readUIntLE_field 10 h rfl (by simp [fieldOffset, Member.centralFields]) (by omega) (by omega)
  have hextraLen : readUIntLE 2 b (p + 30) = .ok m.centralExtra.length :=
    readUIntLE_field 11 h rfl (by simp [fieldOffset, Member.centralFields]) (by omega) (by omega)
  have hcommentLen : readUIntLE 2 b (p + 32) = .ok m.comment.length :=
    readUIntLE_field 12 h rfl (by simp [fieldOffset, Member.centralFields]) (by omega) (by omega)
  have hlocal : readUIntLE 4 b (p + 42) = .ok offset :=
    readUIntLE_field 16 h rfl (by simp [fieldOffset, Member.centralFields]) (by omega) hoffset
  rw [readCentral, hrecord, hcompression, hcompressed, huncompressed, hnameLen, hextraLen,
    hcommentLen, hlocal]
  simp only [ok_bind, hdecoded, hlength]
  rw [rejectIf_of_not (by simp), ok_bind, rejectIf_of_not hsafe.path]
  rfl

theorem length_localRecord : m.localRecord.length
    = 30 + m.nameBytes.length + m.localExtra.length + m.data.length := by
  rw [Member.localRecord, List.length_append, length_localFields, List.length_append,
    List.length_append]
  omega

theorem zipReadEntry_stored {nameLen extraLen : ℕ} {data : Buffer} (hstored : e.compression = 0)
    (hrecord : hasRecord 30 0x04034b50 b e.localOffset = .ok true)
    (hname : readUIntLE 2 b (e.localOffset + 26) = .ok nameLen)
    (hextra : readUIntLE 2 b (e.localOffset + 28) = .ok extraLen)
    (hlast : e.localOffset + 30 + nameLen + extraLen + e.compressedSize ≤ b.length)
    (hdata : subarray b (e.localOffset + 30 + nameLen + extraLen)
      (e.localOffset + 30 + nameLen + extraLen + e.compressedSize) = data)
    (hsize : data.length = e.uncompressedSize) : zipReadEntry inflateRawSync b e = .ok data := by
  rw [zipReadEntry]
  simp only [hrecord, hname, hextra, ok_bind]
  rw [rejectIf_of_not (by simp), ok_bind, rejectIf_of_not (not_lt.2 hlast), ok_bind, decompress,
    if_pos hstored, hdata, ok_bind, rejectIf_of_not (not_not.2 hsize)]
  rfl

theorem zipReadEntry_record {offset : ℕ} (hsafe : m.Safe)
    (h : b.drop offset = m.localRecord ++ rest) :
    zipReadEntry inflateRawSync b (m.entry offset) = .ok m.data := by
  have hlength := congrArg List.length h
  rw [List.length_drop, List.length_append, length_localRecord] at hlength
  rw [Member.localRecord, List.append_assoc] at h
  have hname := hsafe.nameBytes
  have hextra := hsafe.localExtra
  have hbehind := drop_of_drop h
  rw [length_localFields, List.append_assoc] at hbehind
  have hskip := drop_of_drop (drop_of_drop hbehind |>.trans (List.append_assoc ..))
  have hrecord : hasRecord 30 0x04034b50 b offset = .ok true :=
    hasRecord_fields h rfl (by omega) length_localFields.symm (by omega)
  have hnameLen : readUIntLE 2 b (offset + 26) = .ok m.nameBytes.length :=
    readUIntLE_field 9 h rfl (by simp [fieldOffset, Member.localFields]) (by omega) (by omega)
  have hextraLen : readUIntLE 2 b (offset + 28) = .ok m.localExtra.length :=
    readUIntLE_field 10 h rfl (by simp [fieldOffset, Member.localFields]) (by omega) (by omega)
  have hdata := subarray_of_drop hskip rfl
  have hlast : offset + 30 + m.nameBytes.length + m.localExtra.length + m.data.length ≤ b.length := by
    omega
  exact zipReadEntry_stored rfl hrecord hnameLen hextraLen hlast hdata rfl

theorem readEntries_records {offset total : ℕ} (hsafe : ∀ m ∈ members, m.Safe)
    (htotal : total + (members.map (·.data.length)).sum ≤ maxArchiveUncompressed)
    (hend : offset + (localRecords members).length < 256 ^ 4)
    (h : b.drop p = centralRecords offset members ++ rest) :
    readEntries b members.length p total = .ok (entriesOf offset members) := by
  induction members generalizing p offset total with
  | nil => rfl
  | cons m members ih =>
    rw [localRecords, List.flatMap_cons, List.length_append] at hend
    rw [List.map_cons, List.sum_cons] at htotal
    rw [centralRecords, List.append_assoc] at h
    have hlocal := length_localRecord (m := m)
    have hlimit : maxArchiveUncompressed < 256 ^ 4 := by
      rw [maxArchiveUncompressed]
      omega
    have hcentral := readCentral_record (hsafe m (List.mem_cons_self ..)) (by omega) (by omega) h
    have hrest : readEntries b members.length (p + (m.centralRecord offset).length)
        (total + m.data.length) = .ok (entriesOf (offset + m.localRecord.length) members) := by
      refine ih (fun m hm => hsafe m (List.mem_cons_of_mem _ hm)) (by omega) ?_ (drop_of_drop h)
      rw [localRecords]
      omega
    have hfits : total + (m.entry offset).uncompressedSize ≤ maxArchiveUncompressed := by
      show total + m.data.length ≤ _
      omega
    rw [List.length_cons, readEntries, hcentral, ok_bind]
    dsimp only
    rw [rejectIf_of_not (not_lt.2 hfits), ok_bind]
    show (readEntries b members.length (p + (m.centralRecord offset).length)
      (total + m.data.length) >>= _) = _
    rw [hrest]
    rfl

theorem map_zipReadEntry {offset : ℕ} (hsafe : ∀ m ∈ members, m.Safe)
    (h : b.drop offset = localRecords members ++ rest) :
    (entriesOf offset members).map (zipReadEntry inflateRawSync b)
    = members.map fun m => .ok m.data := by
  induction members generalizing offset with
  | nil => rfl
  | cons m members ih =>
    rw [localRecords, List.flatMap_cons, List.append_assoc] at h
    rw [entriesOf, List.map_cons, List.map_cons,
      zipReadEntry_record (hsafe m (List.mem_cons_self ..)) h,
      ih (fun m hm => hsafe m (List.mem_cons_of_mem _ hm)) (drop_of_drop h)]

theorem length_localRecords_le (hsafe : ∀ m ∈ members, m.Safe) : (localRecords members).length
    ≤ members.length * 131100 + (members.map (·.data.length)).sum := by
  induction members with
  | nil => exact Nat.zero_le _
  | cons m members ih =>
    have hrest := ih fun m hm => hsafe m (List.mem_cons_of_mem _ hm)
    have hm := hsafe m (List.mem_cons_self ..)
    have hname := hm.nameBytes
    have hextra := hm.localExtra
    have hrecord := length_localRecord (m := m)
    rw [localRecords, List.flatMap_cons, List.length_append, List.length_cons, List.map_cons,
      List.sum_cons]
    rw [localRecords] at hrest
    omega

theorem length_endFields : (fieldBytes (endFields members)).length = 22 := by
  rw [length_fieldBytes]
  simp [endFields]

theorem findEnd_archive (members : List Member) :
    findEnd (archive members) ((archive members).length - 65557)
        ((archive members).length - 21 - ((archive members).length - 65557))
      = .ok (some (localRecords members ++ centralRecords 0 members).length) := by
  have hlength : (archive members).length
      = (localRecords members ++ centralRecords 0 members).length + 22 := by
    rw [archive, ← List.append_assoc, List.length_append, length_endFields]
  have hdrop : (archive members).drop (localRecords members ++ centralRecords 0 members).length
      = fieldBytes (endFields members) ++ [] := by
    rw [archive, ← List.append_assoc, List.drop_left, List.append_nil]
  have hsignature := readUIntLE_field (k := 0) 0 hdrop rfl rfl (by omega) (by omega)
  rw [Nat.add_zero] at hsignature
  obtain ⟨n, hn⟩ : ∃ n, (archive members).length - 21 - ((archive members).length - 65557) = n + 1 :=
    ⟨(archive members).length - 22 - ((archive members).length - 65557), by omega⟩
  have hfirst : (archive members).length - 65557 + n
      = (localRecords members ++ centralRecords 0 members).length := by
    omega
  rw [hn, findEnd, hfirst, hsignature]
  rfl

theorem zipEntries_archive (h : Bounded members) :
    zipEntries (archive members) = .ok (entriesOf 0 members) := by
  have hdrop : (archive members).drop (localRecords members ++ centralRecords 0 members).length
      = fieldBytes (endFields members) ++ [] := by
    rw [archive, ← List.append_assoc, List.drop_left, List.append_nil]
  have hcentral : (archive members).drop (localRecords members).length
      = centralRecords 0 members ++ fieldBytes (endFields members) := List.drop_left
  have hcount := h.count
  have htotal := h.total
  have hlocal := length_localRecords_le h.safe
  rw [maxArchiveEntries] at hcount
  rw [maxArchiveUncompressed] at htotal
  have hoffset : (localRecords members).length < 256 ^ 4 := by omega
  have hentries : readUIntLE 2 (archive members)
      ((localRecords members ++ centralRecords 0 members).length + 10) = .ok members.length :=
    readUIntLE_field 4 hdrop rfl (by simp [fieldOffset, endFields]) (by omega) (by omega)
  have hdirectory : readUIntLE 4 (archive members)
      ((localRecords members ++ centralRecords 0 members).length + 16)
        = .ok (localRecords members).length :=
    readUIntLE_field 6 hdrop rfl (by simp [fieldOffset, endFields]) (by omega) hoffset
  rw [zipEntries, findEnd_archive, ok_bind]
  simp only [hentries, hdirectory, ok_bind]
  rw [rejectIf_of_not (by rw [maxArchiveEntries]; omega), ok_bind]
  exact readEntries_records h.safe (by rw [Nat.zero_add]; exact h.total) (by omega) hcentral

/-- Reading throws archive errors and what `inflateRawSync` threw; the entries
are read to no more than the limit; and an archive is read back. -/
theorem zip_reading (inflateRawSync : Buffer → Nat → Result Buffer) :
    (∀ b : Buffer, Throws ArchiveError (zipEntries b)
      ∧ (∀ e, Throws (fun error => ArchiveError error ∨ InflateError inflateRawSync b e error)
        (zipReadEntry inflateRawSync b e)) ∧ ∀ entries, zipEntries b = .ok entries →
        ((outputs inflateRawSync b entries).map List.length).sum ≤ maxArchiveUncompressed)
    ∧ ∀ members : List Member, Bounded members →
      zipEntries (archive members) = .ok (entriesOf 0 members)
        ∧ (entriesOf 0 members).map (zipReadEntry inflateRawSync (archive members))
          = members.map fun m => .ok m.data := by
  constructor
  · intro b
    exact ⟨zipEntries_throws b, zipReadEntry_throws inflateRawSync b,
      fun entries h => zipEntries_total h⟩
  · intro members h
    exact ⟨zipEntries_archive h, map_zipReadEntry h.safe rfl⟩

def sampleMember : Member where
  name := ['a', '.', 't', 'x', 't']
  data := [104, 105]
  versionMade := 20
  versionNeeded := 20
  flags := 0
  time := 0
  date := 33
  crc32 := 3633523372
  disk := 0
  internalAttributes := 0
  externalAttributes := 0
  localExtra := []
  centralExtra := []
  comment := []

theorem bounded_sample : Bounded [sampleMember] := by
  refine ⟨by decide, ?_, by decide⟩
  intro m hm
  rw [List.mem_singleton.1 hm]
  exact ⟨by decide, by decide, by decide, by decide, by decide⟩

/-- An archive of one stored member. -/
theorem zip_reading_sample : zipEntries (archive [sampleMember]) = .ok (entriesOf 0 [sampleMember]) :=
  ((zip_reading fun _ _ => .ok []).2 [sampleMember] bounded_sample).1

/-- An archive of the file `a`, whose compressed data is one byte that begins no
block. -/
def deflated : Buffer :=
  fieldBytes [(4, 0x04034b50), (2, 20), (2, 0), (2, 8), (2, 0), (2, 33), (4, 0), (4, 1), (4, 1),
      (2, 1), (2, 0)] ++ [97, 255]
    ++ (fieldBytes [(4, 0x02014b50), (2, 20), (2, 20), (2, 0), (2, 8), (2, 0), (2, 33), (4, 0),
      (4, 1), (4, 1), (2, 1), (2, 0), (2, 0), (2, 0), (2, 0), (4, 0), (4, 0)] ++ [97]
    ++ fieldBytes [(4, 0x06054b50), (2, 0), (2, 0), (2, 1), (2, 1), (4, 47), (4, 32), (2, 0)])

def deflatedEntry : ZipEntry where
  name := ['a']
  compression := 8
  compressedSize := 1
  uncompressedSize := 1
  localOffset := 0

/-- The error of `inflateRawSync` reaches the caller. -/
theorem inflate_error_passes : zipEntries deflated = .ok [deflatedEntry]
    ∧ zipReadEntry (fun _ _ => fail .error "invalid block type") deflated deflatedEntry
      = fail .error "invalid block type"
    ∧ ¬ ArchiveError { code := .error, message := "invalid block type" } := by
  refine ⟨by decide, by decide, ?_⟩
  intro h
  rcases h with h | h | h
  · cases h
  · cases h
  · cases h

end OperatorRuntime.Document
