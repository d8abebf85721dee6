/-
The steps of the calls on a state file, over a directory in which every
name has an inode of its own. A write fills a temporary file (`holding`)
and ends with that file under the path (`published`); the file that is
created goes through a state in which it has both names.
-/
import OperatorRuntime.Durable.DurableState

namespace OperatorRuntime.DurableState

open Lib FileSystem

section
variable {α β : Type} {fs : FileSystem}

-- ===== steps

theorem reads_bind {x : Call α} {f : α → Call β} {a : α} (h : x fs = ⟨[], .ok a⟩) :
    (x >>= f) fs = f a fs := by
  rw [Script.bind_of_ok h]
  rfl

theorem throws_bind {x : Call α} {f : α → Call β} {states : List FileSystem} {e : Thrown}
    (h : x fs = ⟨states, .error e⟩) : (x >>= f) fs = ⟨states, .error e⟩ := by
  show Script.bind x f fs = _
  rw [Script.bind, h]

theorem attempt_eq {x : Call α} {states : List FileSystem} {answer : Except Thrown α}
    (h : x fs = ⟨states, answer⟩) : x.attempt fs = ⟨states, .ok answer⟩ := by
  rw [Script.attempt, h]

theorem throwIf_of_not {bad : Prop} [Decidable bad] {e : Thrown} (h : ¬ bad) :
    throwIf bad e fs = ⟨[], .ok ⟨⟩⟩ := by
  rw [throwIf, if_neg h]
  rfl

theorem throwIf_of {bad : Prop} [Decidable bad] {e : Thrown} (h : bad) :
    throwIf bad e fs = ⟨[], .error e⟩ := by
  rw [throwIf, if_pos h]
  rfl

end

section
variable {options : DurableStateOptions} {windows : Bool} {file temp : String} {fs : FileSystem}
  {stat : Stats} {bytes : Bytes} {ino : Nat}

-- ===== checks

/-- What the checks of a path want of it. -/
structure Regular (options : DurableStateOptions) (stat : Stats) : Prop where
  kind : stat.kind = .file
  nlink : stat.nlink = 1
  size : stat.size ≤ options.maxBytes.val

theorem Regular.stable (h : Regular options stat) :
    assertStableRegular options stat fs = ⟨[], .ok ⟨⟩⟩ := by
  rw [assertStableRegular, reads_bind (throwIf_of_not (not_ne_iff.2 h.kind)),
    reads_bind (throwIf_of_not (not_ne_iff.2 h.nlink))]
  exact throwIf_of_not (Nat.not_lt.2 h.size)

theorem Regular.readable (h : Regular options stat) {message : String} :
    assertReadableRegular options stat message fs = ⟨[], .ok ⟨⟩⟩ := by
  rw [assertReadableRegular, reads_bind (throwIf_of_not (not_ne_iff.2 h.kind)),
    reads_bind (throwIf_of_not (not_ne_iff.2 h.nlink))]
  exact throwIf_of_not (Nat.not_lt.2 h.size)

theorem Regular.opened (h : Regular options stat) {message : String} :
    assertOpenedRegular options stat message fs = ⟨[], .ok ⟨⟩⟩ := by
  rw [assertOpenedRegular, reads_bind (throwIf_of_not (not_ne_iff.2 h.kind)),
    reads_bind (throwIf_of_not (not_ne_iff.2 h.nlink))]
  exact throwIf_of_not (Nat.not_lt.2 h.size)

theorem regular_stats (hsingle : fs.Single) {name : String} (hfind : fs.find? name = some ino)
    (hkind : (fs.inodes ino).kind = .file)
    (hsize : (fs.inodes ino).bytes.length ≤ options.maxBytes.val) :
    Regular options (fs.stats ino) :=
  ⟨hkind, hsingle.nlink hfind, hsize⟩

theorem look_lstat (hfind : fs.find? file = some ino) :
    look (lstat file) fs = ⟨[], .ok (fs.stats ino)⟩ := by
  rw [look, lstat_eq hfind]
  rfl

theorem look_missing (hfind : fs.find? file = none) :
    look (lstat file) fs = ⟨[], .error (.errno .enoent)⟩ := by
  rw [look, lstat, hfind]
  rfl

-- ===== clean

/-- Every name has an inode of its own, and that of the path is a file the
reader accepts. -/
structure Clean (options : DurableStateOptions) (file : String) (fs : FileSystem) : Prop where
  single : fs.Single
  accepted : ∀ inode, fs.inode? file = some inode →
    inode.kind = .file ∧ inode.bytes.length ≤ options.maxBytes.val

def content (file : String) (fs : FileSystem) : Option Bytes :=
  (fs.inode? file).map (·.bytes)

theorem inode?_eq (hfind : fs.find? file = some ino) : fs.inode? file = some (fs.inodes ino) := by
  rw [inode?, hfind]
  rfl

theorem Clean.regular (h : Clean options file fs) (hfind : fs.find? file = some ino) :
    Regular options (fs.stats ino) := by
  obtain ⟨hkind, hsize⟩ := h.accepted _ (inode?_eq hfind)
  exact regular_stats h.single hfind hkind hsize

theorem Clean.target (h : Clean options file fs) :
    assertReplaceTarget options file fs = ⟨[], .ok ⟨⟩⟩ := by
  rw [assertReplaceTarget]
  cases hfind : fs.find? file with
  | none => rw [reads_bind (attempt_eq (look_missing hfind))]; rfl
  | some ino =>
    rw [reads_bind (attempt_eq (look_lstat hfind))]
    exact (h.regular hfind).stable

-- ===== reading

theorem Regular.sameFile (hpos : 0 < stat.ino) : sameFile windows stat stat :=
  ⟨fun _ => ⟨Nat.ne_of_gt hpos, Nat.ne_of_gt hpos⟩, rfl⟩

theorem Clean.readOnce (h : Clean options file fs) (hfind : fs.find? file = some ino) :
    readDurableStateBytesOnce options windows file fs = ⟨[], .ok (fs.inodes ino).bytes⟩ := by
  have hregular := h.regular hfind
  obtain ⟨hkind, hsize⟩ := h.accepted _ (inode?_eq hfind)
  have hsame : DurableState.sameFile windows (fs.stats ino) (fs.stats ino) :=
    Regular.sameFile (h.single.positive _ (mem_of_find? hfind))
  have hopen : openRead options windows file fs = ⟨[], .ok ino⟩ := by
    have hread : (Script.read : Call FileSystem) fs = ⟨[], .ok fs⟩ := rfl
    rw [openRead, reads_bind hread, hfind]
    dsimp only
    rw [if_neg]
    · rfl
    · intro hlink
      rw [hkind] at hlink
      cases hlink.1
  have hagain : lstatAgain file fs = ⟨[], .ok (fs.stats ino)⟩ := by
    rw [lstatAgain, reads_bind (attempt_eq (look_lstat hfind))]
    rfl
  have hstat : look (fun fs => .ok (fs.stats ino)) fs = ⟨[], .ok (fs.stats ino)⟩ := rfl
  have hbytes : look (fun fs => .ok (fs.inodes ino).bytes) fs
      = ⟨[], .ok (fs.inodes ino).bytes⟩ := rfl
  rw [readDurableStateBytesOnce, reads_bind (look_lstat hfind), reads_bind hregular.readable,
    reads_bind hopen, reads_bind hstat, reads_bind hregular.opened,
    reads_bind (throwIf_of_not (not_not.2 hsame)), reads_bind hbytes,
    reads_bind (throwIf_of_not (Nat.not_lt.2 hsize)), reads_bind hstat,
    reads_bind hregular.opened, reads_bind (throwIf_of_not ?_), reads_bind hagain,
    reads_bind hregular.readable, reads_bind (throwIf_of_not (not_not.2 hsame))]
  · rfl
  · intro hchanged
    rcases hchanged with hother | hgrown
    · exact hother hsame
    · exact hgrown rfl

theorem Clean.read (windows : Bool) (h : Clean options file fs) :
    readDurableStateBytes options windows file fs = ⟨[], match content file fs with
      | some bytes => .ok bytes
      | none => .error (.errno .enoent)⟩ := by
  rw [readDurableStateBytes, readAttempts, content, inode?]
  cases hfind : fs.find? file with
  | none =>
    have honce : readDurableStateBytesOnce options windows file fs
        = ⟨[], .error (.errno .enoent)⟩ := by
      rw [readDurableStateBytesOnce, throws_bind (look_missing hfind)]
    rw [reads_bind (attempt_eq honce)]
    rfl
  | some ino =>
    rw [reads_bind (attempt_eq (h.readOnce hfind))]
    rfl

-- ===== staging

def holding (temp : String) (fs : FileSystem) (bytes : Bytes) : FileSystem :=
  (fs.setInode fs.unused { kind := .file, bytes }).named temp fs.unused

/-- The states a temporary file goes through until it holds the bytes. -/
def staging (temp : String) (fs : FileSystem) (bytes : Bytes) : List FileSystem :=
  holding temp fs [] :: (List.range (bytes.length + 1)).map fun n => holding temp fs (bytes.take n)

theorem endOf_staging : endOf fs (staging temp fs bytes) = holding temp fs bytes := by
  rw [staging, List.range_succ, List.map_append, List.map_singleton, List.take_length,
    ← List.cons_append, Script.endOf_append]
  rfl

theorem find?_holding : (holding temp fs bytes).find? temp = some fs.unused := by
  rw [holding, find?_named, if_pos rfl]

theorem inodes_holding : (holding temp fs bytes).inodes fs.unused = { kind := .file, bytes } :=
  if_pos rfl

theorem setInode_holding {more : Bytes} :
    (holding temp fs bytes).setInode fs.unused { kind := .file, bytes := more }
      = holding temp fs more := by
  show FileSystem.mk _ _ = FileSystem.mk _ _
  refine congrArg (FileSystem.mk _) ?_
  funext i
  show (if i = fs.unused then _ else if i = fs.unused then _ else fs.inodes i)
    = if i = fs.unused then _ else fs.inodes i
  split
  · rfl
  · rfl

theorem holding_single (hsingle : fs.Single) (htemp : fs.find? temp = none) :
    (holding temp fs bytes).Single :=
  hsingle.unused htemp

theorem holding_regular (hsingle : fs.Single) (htemp : fs.find? temp = none)
    (hsize : bytes.length ≤ options.maxBytes.val) :
    Regular options ((holding temp fs bytes).stats fs.unused) := by
  refine regular_stats (holding_single hsingle htemp) find?_holding ?_ ?_
  · rw [inodes_holding]
  · rw [inodes_holding]
    exact hsize

theorem stage_eq (hsingle : fs.Single) (htemp : fs.find? temp = none)
    (hsize : bytes.length ≤ options.maxBytes.val) :
    stage options temp bytes fs = ⟨staging temp fs bytes, .ok ()⟩ := by
  have hcreate : change (create temp) fs = ⟨[holding temp fs []], .ok fs.unused⟩ := by
    rw [change, create_eq htemp]
    rfl
  have hwrite : writeFile fs.unused bytes (holding temp fs [])
      = ⟨(List.range (bytes.length + 1)).map fun n => holding temp fs (bytes.take n), .ok ()⟩ := by
    rw [writeFile]
    refine congrArg (Trace.mk · (Except.ok ())) (List.map_congr_left ?_)
    intro n _
    exact setInode_holding
  have hend : endOf (holding temp fs [])
      ((List.range (bytes.length + 1)).map fun n => holding temp fs (bytes.take n))
      = holding temp fs bytes := by
    rw [List.range_succ, List.map_append, List.map_singleton, List.take_length, Script.endOf_append]
    rfl
  have hsizes : ¬ ((holding temp fs bytes).stats fs.unused).size ≠ bytes.length := by
    rw [not_ne_iff]
    show ((holding temp fs bytes).inodes fs.unused).bytes.length = _
    rw [inodes_holding]
  rw [stage, Script.bind_of_ok hcreate]
  rw [show endOf fs [holding temp fs []] = holding temp fs [] from rfl, Script.bind_of_ok hwrite,
    hend, reads_bind (look_lstat find?_holding),
    reads_bind (holding_regular hsingle htemp hsize).stable, throwIf_of_not hsizes]
  simp [staging]

-- ===== publishing

def published (temp file : String) (fs : FileSystem) (bytes : Bytes) : FileSystem :=
  (((holding temp fs bytes).without temp).without file).named file fs.unused

theorem inode?_holding {name : String} : (holding temp fs bytes).inode? name
    = if name = temp then some { kind := .file, bytes } else fs.inode? name :=
  inode?_created

theorem inode?_published :
    (published temp file fs bytes).inode? file = some { kind := .file, bytes } := by
  rw [published, inode?_renamed find?_holding, inode?_holding, if_pos rfl, if_pos rfl]

theorem published_clean (hsingle : fs.Single) (htemp : fs.find? temp = none)
    (hsize : bytes.length ≤ options.maxBytes.val) :
    Clean options file (published temp file fs bytes)
    ∧ content file (published temp file fs bytes) = some bytes := by
  refine ⟨⟨(holding_single hsingle htemp).renamed find?_holding, ?_⟩, ?_⟩
  · intro inode hin
    rw [inode?_published] at hin
    rw [← Option.some.inj hin]
    exact ⟨rfl, hsize⟩
  · rw [content, inode?_published]
    rfl

theorem Clean.holding (h : Clean options file fs) (htemp : fs.find? temp = none)
    (hne : file ≠ temp) (bytes : Bytes) : Clean options file (holding temp fs bytes)
    ∧ content file (DurableState.holding temp fs bytes) = content file fs := by
  have hinode : (DurableState.holding temp fs bytes).inode? file = fs.inode? file := by
    rw [inode?_holding, if_neg hne]
  refine ⟨⟨holding_single h.single htemp, ?_⟩, ?_⟩
  · rw [hinode]
    exact h.accepted
  · rw [content, hinode, content]

theorem Clean.without (h : Clean options file fs) (hne : file ≠ temp) :
    Clean options file (fs.without temp) ∧ content file (fs.without temp) = content file fs := by
  have hinode : (fs.without temp).inode? file = fs.inode? file := by
    rw [inode?_without, if_neg hne]
  refine ⟨⟨h.single.without, ?_⟩, ?_⟩
  · rw [hinode]
    exact h.accepted
  · rw [content, hinode, content]

theorem removeTemp_holding : removeTemp temp (holding temp fs bytes)
    = ⟨[(holding temp fs bytes).without temp], .ok ()⟩ := by
  have hremove : change (remove temp) (holding temp fs bytes)
      = ⟨[(holding temp fs bytes).without temp], .ok ()⟩ := by
    rw [change, remove_eq find?_holding]
  rw [removeTemp, Script.bind_of_ok (attempt_eq hremove)]
  rfl

theorem removeTemp_missing (h : fs.find? temp = none) : removeTemp temp fs = ⟨[], .ok ()⟩ := by
  have hremove : change (remove temp) fs = ⟨[], .error (.errno .enoent)⟩ := by
    rw [change, remove, h]
  rw [removeTemp, reads_bind (attempt_eq hremove)]
  rfl

theorem publish_cases (windows : Bool) (h : Clean options file fs) (htemp : fs.find? temp = none)
    (hne : file ≠ temp) (hsize : bytes.length ≤ options.maxBytes.val) (attempt : Nat)
    (failures : List Errno) :
    publishDurableReplacement options windows file temp attempt failures (holding temp fs bytes)
      = ⟨[published temp file fs bytes], .ok ()⟩
    ∨ failures ≠ [] ∧ ∃ e, publishDurableReplacement options windows file temp attempt failures
      (holding temp fs bytes) = ⟨[], .error e⟩ := by
  have hclean := (h.holding htemp hne bytes).1
  have hstaged : assertStaged options file temp (holding temp fs bytes) = ⟨[], .ok ()⟩ := by
    rw [assertStaged, reads_bind (look_lstat find?_holding),
      reads_bind (holding_regular h.single htemp hsize).stable]
    exact hclean.target
  induction failures generalizing attempt with
  | nil =>
    left
    rw [publishDurableReplacement, reads_bind hstaged, change,
      hclean.single.rename_eq find?_holding hne.symm]
    rfl
  | cons code failures ih =>
    rw [publishDurableReplacement, reads_bind hstaged]
    split
    · rcases ih (attempt + 1) with hok | ⟨-, e, he⟩
      · exact .inl hok
      · exact .inr ⟨List.cons_ne_nil _ _, e, he⟩
    · exact .inr ⟨List.cons_ne_nil _ _, .errno code, rfl⟩

theorem assertCommitted_published (hsingle : fs.Single) (htemp : fs.find? temp = none)
    (hsize : bytes.length ≤ options.maxBytes.val) :
    assertCommitted options file bytes (published temp file fs bytes) = ⟨[], .ok ()⟩ := by
  have hfind : (published temp file fs bytes).find? file = some fs.unused := by
    rw [published, find?_named, if_pos rfl]
  have hclean : Clean options file (published temp file fs bytes) :=
    (published_clean hsingle htemp hsize).1
  rw [assertCommitted, reads_bind (look_lstat hfind), reads_bind (hclean.regular hfind).stable]
  refine throwIf_of_not (not_ne_iff.2 ?_)
  show ((holding temp fs bytes).inodes fs.unused).bytes.length = _
  rw [inodes_holding]

-- ===== calls

theorem write_cases (windows : Bool) (bytes : Bytes) (h : Clean options file fs) (htemp : fs.find? temp = none)
    (hne : file ≠ temp) (failures : List Errno) :
    (∃ e, writeDurableStateBytes options windows file temp failures bytes fs = ⟨[], .error e⟩)
        ∧ options.maxBytes.val < bytes.length ∨ bytes.length ≤ options.maxBytes.val
        ∧ (writeDurableStateBytes options windows file temp failures bytes fs
            = ⟨staging temp fs bytes ++ [published temp file fs bytes], .ok ()⟩
          ∨ failures ≠ [] ∧ ∃ e, writeDurableStateBytes options windows file temp failures bytes fs
            = ⟨staging temp fs bytes ++ [(holding temp fs bytes).without temp], .error e⟩) := by
  by_cases hsize : options.maxBytes.val < bytes.length
  · refine .inl ⟨⟨invalid options "Serialized state exceeds the bounded size.", ?_⟩, hsize⟩
    rw [writeDurableStateBytes, throws_bind (throwIf_of hsize)]
  · refine .inr ⟨Nat.not_lt.1 hsize, ?_⟩
    have hstage := stage_eq h.single htemp (Nat.not_lt.1 hsize)
    rw [writeDurableStateBytes, reads_bind (throwIf_of_not hsize), reads_bind h.target]
    rcases publish_cases windows h htemp hne (Nat.not_lt.1 hsize) 0 failures with
      hok | ⟨hfailures, e, he⟩
    · left
      have hbody : (do stage options temp bytes
                       publishDurableReplacement options windows file temp 0 failures : Call Unit) fs
          = ⟨staging temp fs bytes ++ [published temp file fs bytes], .ok ()⟩ := by
        rw [Script.bind_of_ok hstage, endOf_staging, hok]
      rw [Script.bind_of_ok (attempt_eq hbody)]
      dsimp only
      rw [Script.endOf_append,
        show ∀ s : FileSystem, endOf s [published temp file fs bytes] = published temp file fs bytes
          from fun _ => rfl,
        assertCommitted_published h.single htemp (Nat.not_lt.1 hsize), List.append_nil]
    · refine .inr ⟨hfailures, e, ?_⟩
      have hbody : (do stage options temp bytes
                       publishDurableReplacement options windows file temp 0 failures : Call Unit) fs
          = ⟨staging temp fs bytes, .error e⟩ := by
        rw [Script.bind_of_ok hstage, endOf_staging, he, List.append_nil]
      rw [Script.bind_of_ok (attempt_eq hbody)]
      dsimp only
      rw [endOf_staging, Script.bind_of_ok removeTemp_holding]
      rfl

/-- The directory in which a file that is created has both its names. -/
def linked (temp file : String) (fs : FileSystem) (bytes : Bytes) : FileSystem :=
  (holding temp fs bytes).named file fs.unused

theorem create_cases (bytes : Bytes) (h : Clean options file fs) (htemp : fs.find? temp = none)
    (hne : file ≠ temp) : (¬ (fs.find? file = none ∧ bytes.length ≤ options.maxBytes.val)
        ∧ ∃ e, createDurableStateBytes options file temp bytes fs = ⟨[], .error e⟩)
      ∨ fs.find? file = none ∧ bytes.length ≤ options.maxBytes.val
        ∧ createDurableStateBytes options file temp bytes fs
          = ⟨staging temp fs bytes ++ [linked temp file fs bytes, published temp file fs bytes],
            .ok ()⟩ := by
  by_cases hsize : options.maxBytes.val < bytes.length
  · refine .inl ⟨fun hfits => absurd hfits.2 (Nat.not_le.2 hsize),
      invalid options "Serialized state exceeds the bounded size.", ?_⟩
    rw [createDurableStateBytes, throws_bind (throwIf_of hsize)]
  · rw [createDurableStateBytes, reads_bind (throwIf_of_not hsize)]
    have hsize' := Nat.not_lt.1 hsize
    cases hfind : fs.find? file with
    | some ino =>
      refine .inl ⟨fun hmissing => (nomatch hmissing.1), .errno .eexist, ?_⟩
      have hexists : assertMissing options file fs = ⟨[], .error (.errno .eexist)⟩ := by
        rw [assertMissing, reads_bind (attempt_eq (look_lstat hfind))]
        dsimp only
        rw [reads_bind (h.regular hfind).stable]
        rfl
      rw [throws_bind hexists]
    | none =>
      refine .inr ⟨rfl, hsize', ?_⟩
      have hmissing : assertMissing options file fs = ⟨[], .ok ()⟩ := by
        rw [assertMissing, reads_bind (attempt_eq (look_missing hfind))]
        rfl
      have hfile : (holding temp fs bytes).find? file = none := by
        rw [holding, find?_named, if_neg hne]
        exact hfind
      have hlink : change (link temp file) (holding temp fs bytes)
          = ⟨[linked temp file fs bytes], .ok ()⟩ := by
        rw [change, link_eq find?_holding hfile]
        rfl
      have hbody : (do stage options temp bytes
                       change (link temp file) : Call Unit) fs
          = ⟨staging temp fs bytes ++ [linked temp file fs bytes], .ok ()⟩ := by
        rw [Script.bind_of_ok (stage_eq h.single htemp hsize'), endOf_staging, hlink]
      have hremove : change (remove temp) (linked temp file fs bytes)
          = ⟨[published temp file fs bytes], .ok ()⟩ := by
        have hname : (linked temp file fs bytes).find? temp = some fs.unused := by
          rw [linked, find?_named, if_neg hne.symm, find?_holding]
        rw [change, remove_eq hname, linked, linked_without hfile hne.symm]
        rfl
      have hclean : Clean options file (published temp file fs bytes) :=
        (published_clean h.single htemp hsize').1
      have hfinish : (do change (remove temp)
                         assertCommitted options file bytes : Call Unit)
            (linked temp file fs bytes)
          = ⟨[published temp file fs bytes], .ok ()⟩ := by
        rw [Script.bind_of_ok hremove]
        show Trace.mk (_ ++ (assertCommitted options file bytes
          (published temp file fs bytes)).states) (assertCommitted options file bytes
          (published temp file fs bytes)).answer = _
        rw [assertCommitted_published h.single htemp hsize']
        rfl
      have hgone : (published temp file fs bytes).find? temp = none := by
        rw [published, find?_named, if_neg hne.symm, find?_without, if_neg hne.symm,
          find?_without, if_pos rfl]
      have hend : ∀ s : FileSystem, endOf s [published temp file fs bytes]
          = published temp file fs bytes := fun _ => rfl
      rw [reads_bind hmissing, Script.bind_of_ok (attempt_eq hbody), Script.endOf_append,
        show ∀ s : FileSystem, endOf s [linked temp file fs bytes] = linked temp file fs bytes
          from fun _ => rfl]
      dsimp only
      rw [Script.bind_of_ok (attempt_eq hfinish), hend, reads_bind (removeTemp_missing hgone),
        reads_bind hclean.target]
      show Trace.mk (_ ++ (_ ++ [])) _ = _
      rw [List.append_nil, List.append_assoc]
      rfl

end

end OperatorRuntime.DurableState
