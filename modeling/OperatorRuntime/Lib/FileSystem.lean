/-
A directory of a file system: names that stand for inodes, where two names
may stand for one inode (a hard link). The calls answer the directory they
leave, or an error number.

A directory is `Single` when no two names share an inode. Making a file,
writing one, renaming and removing keep it so; a link does not, and what
is linked stays so until one of its names is removed.
-/
import Mathlib.Data.List.Count
import Mathlib.Data.List.Nodup

namespace OperatorRuntime.Lib

inductive FileKind
  | file
  | symbolicLink
  | special
deriving DecidableEq

structure Inode where
  kind : FileKind
  bytes : List UInt8
deriving DecidableEq

/-- The names of the directory and what their inodes hold. -/
structure FileSystem where
  entries : List (String × Nat)
  inodes : Nat → Inode

inductive Errno
  | enoent
  | eexist
  | eloop
  | eperm
  | eacces
  | ebusy
  | eio
deriving DecidableEq

/-- What `lstat` and `fstat` tell of an inode. -/
structure Stats where
  kind : FileKind
  nlink : Nat
  size : Nat
  ino : Nat
deriving DecidableEq

namespace FileSystem

-- ===== calls

def find? (fs : FileSystem) (name : String) : Option Nat :=
  fs.entries.lookup name

def stats (fs : FileSystem) (ino : Nat) : Stats where
  kind := (fs.inodes ino).kind
  nlink := fs.entries.countP fun entry => entry.2 == ino
  size := (fs.inodes ino).bytes.length
  ino := ino

def lstat (name : String) (fs : FileSystem) : Except Errno Stats :=
  match fs.find? name with
  | some ino => .ok (fs.stats ino)
  | none => .error .enoent

/-- An inode number that no name stands for. -/
def unused (fs : FileSystem) : Nat :=
  (fs.entries.map (·.2)).foldr max 0 + 1

def setInode (fs : FileSystem) (ino : Nat) (inode : Inode) : FileSystem where
  entries := fs.entries
  inodes := fun i => if i = ino then inode else fs.inodes i

/-- The directory with one more name. -/
def named (name : String) (ino : Nat) (fs : FileSystem) : FileSystem where
  entries := (name, ino) :: fs.entries
  inodes := fs.inodes

/-- `open(name, 'wx')`. -/
def create (name : String) (fs : FileSystem) : Except Errno (FileSystem × Nat) :=
  match fs.find? name with
  | some _ => .error .eexist
  | none => .ok ((fs.setInode fs.unused { kind := .file, bytes := [] }).named name fs.unused,
      fs.unused)

/-- `link(old, new)`. -/
def link (old new : String) (fs : FileSystem) : Except Errno (FileSystem × Unit) :=
  match fs.find? old, fs.find? new with
  | none, _ => .error .enoent
  | some _, some _ => .error .eexist
  | some ino, none => .ok (fs.named new ino, ⟨⟩)

def without (name : String) (fs : FileSystem) : FileSystem where
  entries := fs.entries.filter fun entry => entry.1 != name
  inodes := fs.inodes

/-- `rename(old, new)`: two names of one inode are left as they are. -/
def rename (old new : String) (fs : FileSystem) : Except Errno (FileSystem × Unit) :=
  match fs.find? old with
  | none => .error .enoent
  | some ino =>
    if fs.find? new = some ino then .ok (fs, ⟨⟩)
    else .ok (((fs.without old).without new).named new ino, ⟨⟩)

/-- `rm(name)`. -/
def remove (name : String) (fs : FileSystem) : Except Errno (FileSystem × Unit) :=
  match fs.find? name with
  | none => .error .enoent
  | some _ => .ok (fs.without name, ⟨⟩)

-- ===== lookups

variable {fs fs' : FileSystem} {name other old new : String} {ino : Nat}

theorem mem_of_find? (h : fs.find? name = some ino) : (name, ino) ∈ fs.entries := by
  rw [find?, List.lookup_eq_some_iff] at h
  obtain ⟨before, after, heq, -⟩ := h
  rw [heq]
  exact List.mem_append_right _ (List.mem_cons_self ..)

private theorem lookup_cons_if {entries : List (String × Nat)} {key : String} :
    List.lookup name ((key, ino) :: entries)
      = if name = key then some ino else List.lookup name entries := by
  rw [List.lookup_cons]
  split
  · next heq => rw [if_pos (beq_iff_eq.1 heq)]
  · next hne => rw [if_neg (beq_eq_false_iff_ne.1 hne)]

theorem find?_without : (fs.without old).find? name
    = if name = old then none else fs.find? name := by
  rw [find?, find?, without]
  induction fs.entries with
  | nil =>
    rw [List.filter_nil, List.lookup_nil, ite_self]
  | cons entry entries ih =>
    obtain ⟨key, value⟩ := entry
    rw [List.filter_cons]
    by_cases hkey : key = old
    · rw [if_neg (by simpa using hkey), ih, lookup_cons_if]
      by_cases hname : name = old
      · rw [if_pos hname, if_pos hname]
      · rw [if_neg hname, if_neg hname, if_neg fun heq => hname (heq.trans hkey)]
    · rw [if_pos (by simpa using hkey), lookup_cons_if, lookup_cons_if, ih]
      by_cases hname : name = key
      · rw [if_pos hname, if_pos hname, if_neg fun heq => hkey (hname.symm.trans heq)]
      · rw [if_neg hname, if_neg hname]

theorem lt_unused (h : (name, ino) ∈ fs.entries) : ino < fs.unused := by
  have hle : ∀ {l : List Nat} {n : Nat}, n ∈ l → n ≤ l.foldr max 0 := by
    intro l n hn
    induction l with
    | nil => cases hn
    | cons m l ih =>
      rw [List.foldr_cons]
      rcases List.mem_cons.1 hn with rfl | hn
      · exact Nat.le_max_left _ _
      · exact Nat.le_trans (ih hn) (Nat.le_max_right _ _)
  exact Nat.lt_succ_of_le (hle (List.mem_map_of_mem h))

@[simp] theorem find?_setInode {inode : Inode} :
    (fs.setInode ino inode).find? name = fs.find? name := rfl

theorem find?_named : (fs.named new ino).find? name
    = if name = new then some ino else fs.find? name := lookup_cons_if

-- ===== single

/-- Every name has an inode of its own. -/
structure Single (fs : FileSystem) : Prop where
  names : (fs.entries.map (·.1)).Nodup
  inodes : (fs.entries.map (·.2)).Nodup
  positive : ∀ entry ∈ fs.entries, 0 < entry.2

theorem Single.nlink (h : fs.Single) (hfind : fs.find? name = some ino) :
    (fs.stats ino).nlink = 1 := by
  show fs.entries.countP (fun entry => entry.2 == ino) = 1
  have hcount : fs.entries.countP (fun entry => entry.2 == ino)
      = (fs.entries.map (·.2)).count ino := by
    rw [List.count, List.countP_map]
    rfl
  rw [hcount, List.count_eq_one_of_mem h.inodes]
  exact List.mem_map_of_mem (mem_of_find? hfind)

theorem Single.ne (h : fs.Single) (hfind : fs.find? name = some ino) {i : Nat}
    (hother : fs.find? other = some i) (hne : name ≠ other) : ino ≠ i := by
  intro heq
  have hentry := List.inj_on_of_nodup_map h.inodes (mem_of_find? hfind) (mem_of_find? hother) heq
  exact hne (Prod.mk.inj hentry).1

theorem not_mem_of_find? (h : fs.find? name = none) : name ∉ fs.entries.map (·.1) := by
  intro hin
  obtain ⟨entry, hentry, rfl⟩ := List.mem_map.1 hin
  have hne := List.lookup_eq_none_iff.1 h entry hentry
  simp at hne

theorem Single.named (h : fs.Single) (hname : new ∉ fs.entries.map (·.1))
    (hino : ino ∉ fs.entries.map (·.2)) (hpos : 0 < ino) : (fs.named new ino).Single where
  names := List.nodup_cons.2 ⟨hname, h.names⟩
  inodes := List.nodup_cons.2 ⟨hino, h.inodes⟩
  positive := List.forall_mem_cons.2 ⟨hpos, h.positive⟩

theorem Single.without (h : fs.Single) : (fs.without old).Single where
  names := (List.filter_sublist.map _).nodup h.names
  inodes := (List.filter_sublist.map _).nodup h.inodes
  positive := fun entry hin => h.positive entry (List.mem_of_mem_filter hin)

theorem Single.setInode (h : fs.Single) {inode : Inode} : (fs.setInode ino inode).Single :=
  ⟨h.names, h.inodes, h.positive⟩

-- ===== the calls

def inode? (fs : FileSystem) (name : String) : Option Inode :=
  (fs.find? name).map fs.inodes

theorem lstat_eq (h : fs.find? name = some ino) : lstat name fs = .ok (fs.stats ino) := by
  rw [lstat, h]

theorem Single.unused (h : fs.Single) (hname : fs.find? name = none) {inode : Inode} :
    ((fs.setInode fs.unused inode).named name fs.unused).Single := by
  refine h.setInode.named (not_mem_of_find? hname) ?_ (Nat.succ_pos _)
  intro hin
  obtain ⟨entry, hentry, heq⟩ := List.mem_map.1 hin
  have hlt : entry.2 < fs.unused := lt_unused hentry
  rw [heq] at hlt
  exact absurd hlt (Nat.lt_irrefl _)

theorem create_eq (hname : fs.find? name = none) :
    create name fs = .ok ((fs.setInode fs.unused { kind := .file, bytes := [] }).named name
      fs.unused, fs.unused) := by
  rw [create, hname]

theorem inode?_created {inode : Inode} :
    ((fs.setInode fs.unused inode).named name fs.unused).inode? other
    = if other = name then some inode else fs.inode? other := by
  rw [inode?, find?_named]
  by_cases heq : other = name
  · rw [if_pos heq, if_pos heq]
    exact congrArg some (if_pos rfl)
  · rw [if_neg heq, if_neg heq, find?_setInode, inode?]
    cases hfind : fs.find? other with
    | none => rfl
    | some i =>
      refine congrArg some (if_neg ?_)
      exact Nat.ne_of_lt (lt_unused (mem_of_find? hfind))

theorem inode?_without : (fs.without old).inode? name
    = if name = old then none else fs.inode? name := by
  rw [inode?, find?_without, inode?]
  split
  · rfl
  · rfl

theorem remove_eq (h : fs.find? name = some ino) : remove name fs = .ok (fs.without name, ⟨⟩) := by
  rw [remove, h]

theorem Single.rename_eq (h : fs.Single) (hold : fs.find? old = some ino) (hne : old ≠ new) :
    rename old new fs = .ok (((fs.without old).without new).named new ino, ⟨⟩) := by
  rw [rename, hold]
  refine if_neg ?_
  intro hnew
  exact h.ne hold hnew hne rfl

theorem Single.renamed (h : fs.Single) (hold : fs.find? old = some ino) :
    (((fs.without old).without new).named new ino).Single := by
  refine h.without.without.named ?_ ?_ (h.positive _ (mem_of_find? hold))
  · apply not_mem_of_find?
    rw [find?_without, if_pos rfl]
  · intro hin
    obtain ⟨entry, hentry, heq⟩ := List.mem_map.1 hin
    obtain ⟨hentry, -⟩ := List.mem_filter.1 hentry
    obtain ⟨hentry, hne⟩ := List.mem_filter.1 hentry
    have hsame := List.inj_on_of_nodup_map h.inodes hentry (mem_of_find? hold) heq
    rw [hsame] at hne
    simp at hne

theorem inode?_renamed (hold : fs.find? old = some ino) :
    (((fs.without old).without new).named new ino).inode? name
    = if name = new then fs.inode? old else if name = old then none else fs.inode? name := by
  rw [inode?, find?_named, find?_without, find?_without]
  by_cases hnew : name = new
  · rw [if_pos hnew, if_pos hnew, inode?, hold]
    rfl
  · rw [if_neg hnew, if_neg hnew, if_neg hnew]
    split
    · rfl
    · rfl

theorem link_eq (hold : fs.find? old = some ino) (hnew : fs.find? new = none) :
    link old new fs = .ok (fs.named new ino, ⟨⟩) := by
  rw [link, hold, hnew]

theorem nlink_linked (hold : fs.find? old = some ino) :
    2 ≤ ((fs.named new ino).stats ino).nlink := by
  show 2 ≤ ((new, ino) :: fs.entries).countP fun entry => entry.2 == ino
  rw [List.countP_cons_of_pos (by simp)]
  have hpos : 0 < fs.entries.countP fun entry => entry.2 == ino :=
    List.countP_pos_iff.2 ⟨_, mem_of_find? hold, by simp⟩
  omega

theorem linked_without (hnew : fs.find? new = none) (hne : old ≠ new) :
    (fs.named new ino).without old = ((fs.without old).without new).named new ino := by
  have hkeep : (fs.without old).without new = fs.without old := by
    rw [without, without]
    refine congrArg (FileSystem.mk · fs.inodes) (List.filter_eq_self.2 ?_)
    intro entry hin
    rw [bne_iff_ne]
    intro heq
    apply not_mem_of_find? hnew
    rw [← heq]
    exact List.mem_map_of_mem (List.mem_of_mem_filter hin)
  rw [hkeep]
  show FileSystem.mk (List.filter _ ((new, ino) :: fs.entries)) _ = _
  rw [List.filter_cons, if_pos (by simpa using hne.symm)]
  rfl

end FileSystem

end OperatorRuntime.Lib
