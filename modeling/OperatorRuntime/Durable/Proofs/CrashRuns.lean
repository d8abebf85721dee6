/-
What is at the path after any calls and crashes. While no file is created
and the crash falls between its link and the removal of its other name,
every name has an inode of its own, the path holds what the last call to
complete wrote or what a call that crashed since would have written, and
a reader and a writer accept it. A crash in between leaves the path
hard-linked: readers and writers refuse it, and none of the calls ever
changes it (`Stuck`).
-/
import OperatorRuntime.Durable.Proofs.Traces
import OperatorRuntime.Lib.Runs

namespace OperatorRuntime.DurableState

open Lib FileSystem

section
variable {options : DurableStateOptions} {windows : Bool} {file temp : String} {fs : FileSystem}
  {bytes : Bytes}

-- ===== crashes

/-- The directory holds at the path what it did, or the bytes. -/
def Between (options : DurableStateOptions) (file : String) (fs : FileSystem) (bytes : Bytes)
    (s : FileSystem) : Prop :=
  Clean options file s ∧ (content file s = content file fs ∨ content file s = some bytes)

theorem staging_between (h : Clean options file fs) (htemp : fs.find? temp = none)
    (hne : file ≠ temp) (bytes : Bytes) : ∀ s ∈ staging temp fs bytes, Between options file fs bytes s := by
  intro s hs
  have hholding : ∀ more, Between options file fs bytes (holding temp fs more) := by
    intro more
    obtain ⟨hclean, hcontent⟩ := h.holding htemp hne more
    exact ⟨hclean, .inl hcontent⟩
  rcases List.mem_cons.1 hs with rfl | hs
  · exact hholding []
  · obtain ⟨n, -, rfl⟩ := List.mem_map.1 hs
    exact hholding _

theorem length_staging : (staging temp fs bytes).length = bytes.length + 2 := by
  rw [staging, List.length_cons, List.length_map, List.length_range]

theorem endOf_take {states : List FileSystem} {P : FileSystem → Prop} (hstart : P fs)
    (h : ∀ s ∈ states, P s) (n : Nat) : P (endOf fs (states.take n)) := by
  rw [endOf]
  cases hlast : (states.take n).getLast? with
  | none => exact hstart
  | some s => exact h s (List.mem_of_mem_take (List.mem_of_getLast? hlast))

/-- The number of steps of `createDurableStateBytes` up to its link: the
open, the parts of the content, the link. -/
def linkStep (bytes : Bytes) : Nat := bytes.length + 3

theorem endOf_take_link {rest : List FileSystem} {s : FileSystem} :
    endOf fs ((staging temp fs bytes ++ s :: rest).take (linkStep bytes)) = s := by
  have htake : (staging temp fs bytes ++ s :: rest).take (linkStep bytes)
      = staging temp fs bytes ++ [s] := by
    rw [List.take_append, length_staging, linkStep, List.take_of_length_le]
    · have hone : bytes.length + 3 - (bytes.length + 2) = 1 := by omega
      rw [hone]
      rfl
    · rw [length_staging]
      omega
  rw [htake, Script.endOf_append]
  rfl

theorem endOf_take_created {P : FileSystem → Prop} {n : Nat} {s t : FileSystem} (hstart : P fs)
    (hstaging : ∀ s ∈ staging temp fs bytes, P s) (hend : P t) (hn : n ≠ linkStep bytes) :
    P (endOf fs ((staging temp fs bytes ++ [s, t]).take n)) := by
  by_cases hlt : n < linkStep bytes
  · have htake : (staging temp fs bytes ++ [s, t]).take n = (staging temp fs bytes).take n := by
      refine List.take_append_of_le_length ?_
      rw [length_staging]
      rw [linkStep] at hlt
      omega
    rw [htake]
    exact endOf_take hstart hstaging n
  · have htake : (staging temp fs bytes ++ [s, t]).take n = staging temp fs bytes ++ [s, t] := by
      refine List.take_of_length_le ?_
      rw [List.length_append, length_staging]
      rw [linkStep] at hlt hn
      show bytes.length + 2 + 2 ≤ n
      omega
    rw [htake, Script.endOf_append]
    exact hend

end

section
variable {options : DurableStateOptions} {windows : Bool} {file : String} {m m' : Machine}
  {turn : Turn}

-- ===== turns

/-- The UUID a call draws names no file. -/
def Fresh (file : String) (m : Machine) (turn : Turn) : Prop :=
  m.fs.find? (tempName file turn.pid turn.uuid) = none

instance (file : String) (m : Machine) (turn : Turn) : Decidable (Fresh file m turn) :=
  inferInstanceAs (Decidable (_ = _))

/-- No file is created and the crash falls between its link and the removal
of its other name. -/
def Meets (options : DurableStateOptions) (file : String) (m : Machine) (turn : Turn) : Prop :=
  ∀ bytes, turn.op = .createDurableStateBytes bytes → m.fs.find? file = none →
    bytes.length ≤ options.maxBytes.val → turn.crash ≠ some (linkStep bytes)

theorem file_ne_tempName {pid : Nat} {uuid : String} : file ≠ tempName file pid uuid := by
  intro heq
  have hlength := congrArg (fun name => name.length) heq
  simp only [tempName, String.length_append] at hlength
  have hdot : ".".length = 1 := rfl
  omega

/-- What holds of the path: a reader and a writer accept it, and it is what
may be expected there. -/
structure Inv (options : DurableStateOptions) (file : String) (m : Machine) : Prop where
  clean : Clean options file m.fs
  content : content file m.fs ∈ m.candidates

theorem Inv.of_trace (h : Inv options file m) {states : List FileSystem}
    {answer : Except Thrown Unit} (htrace : turn.call options windows file m.fs = ⟨states, answer⟩)
    (hcrash : ∀ n, turn.crash = some n →
      Between options file m.fs turn.op.content (endOf m.fs (states.take n)))
    (hend : turn.crash = none → Clean options file (endOf m.fs states)
      ∧ DurableState.content file (endOf m.fs states) = match answer with
          | .ok _ => some turn.op.content
          | .error _ => DurableState.content file m.fs) :
    Inv options file (turn.after options windows file m) := by
  unfold Turn.after
  dsimp only
  rw [htrace]
  cases hcase : turn.crash with
  | some n =>
    obtain ⟨hclean, hcontent⟩ := hcrash n hcase
    dsimp only
    rw [Script.upTo, htrace]
    refine ⟨hclean, ?_⟩
    rcases hcontent with hold | hnew
    · exact List.mem_append_left _ (hold ▸ h.content)
    · exact List.mem_append_right _ (List.mem_singleton.2 hnew)
  | none =>
    obtain ⟨hclean, hcontent⟩ := hend hcase
    cases answer with
    | ok u => exact ⟨hclean, List.mem_singleton.2 hcontent⟩
    | error e =>
      refine ⟨hclean, ?_⟩
      show DurableState.content file (endOf m.fs states) ∈ m.candidates
      rw [hcontent]
      exact h.content

theorem Inv.of_refused (h : Inv options file m) {e : Thrown}
    (htrace : turn.call options windows file m.fs = ⟨[], .error e⟩) :
    Inv options file (turn.after options windows file m) := by
  refine h.of_trace htrace ?_ ?_
  · intro n _
    rw [List.take_nil]
    exact ⟨h.clean, .inl rfl⟩
  · intro _
    exact ⟨h.clean, rfl⟩

theorem Inv.after (h : Inv options file m) (hfresh : Fresh file m turn)
    (hmeets : Meets options file m turn) :
    Inv options file (turn.after options windows file m) := by
  have hne : file ≠ tempName file turn.pid turn.uuid := file_ne_tempName
  have hself : ∀ bytes, Between options file m.fs bytes m.fs :=
    fun bytes => ⟨h.clean, .inl rfl⟩
  cases hop : turn.op with
  | writeDurableStateBytes failures bytes =>
    have hcall : turn.call options windows file = writeDurableStateBytes options windows file
        (tempName file turn.pid turn.uuid) failures bytes := by
      rw [Turn.call, hop]
    have hcontent : turn.op.content = bytes := by
      rw [hop]
      rfl
    have hstaging := staging_between h.clean hfresh hne bytes
    rcases write_cases windows bytes h.clean hfresh hne failures with
      ⟨⟨e, he⟩, -⟩ | ⟨hsize, hok | ⟨-, e, he⟩⟩
    · exact h.of_refused (hcall ▸ he)
    · obtain ⟨hclean, hbytes⟩ : Clean options file _ ∧ _ :=
        published_clean h.clean.single hfresh hsize
      refine h.of_trace (hcall ▸ hok) ?_ ?_
      · intro n _
        rw [hcontent]
        refine endOf_take (hself bytes) ?_ n
        intro s hs
        rcases List.mem_append.1 hs with hs | hs
        · exact hstaging s hs
        · rw [List.mem_singleton.1 hs]
          exact ⟨hclean, .inr hbytes⟩
      · intro _
        rw [Script.endOf_append, hcontent]
        exact ⟨hclean, hbytes⟩
    · obtain ⟨hheld, hsame⟩ := h.clean.holding hfresh hne bytes
      obtain ⟨hclean, hkept⟩ := hheld.without hne
      refine h.of_trace (hcall ▸ he) ?_ ?_
      · intro n _
        rw [hcontent]
        refine endOf_take (hself bytes) ?_ n
        intro s hs
        rcases List.mem_append.1 hs with hs | hs
        · exact hstaging s hs
        · rw [List.mem_singleton.1 hs]
          exact ⟨hclean, .inl (hkept.trans hsame)⟩
      · intro _
        rw [Script.endOf_append]
        exact ⟨hclean, hkept.trans hsame⟩
  | createDurableStateBytes bytes =>
    have hcall : turn.call options windows file = createDurableStateBytes options file
        (tempName file turn.pid turn.uuid) bytes := by
      rw [Turn.call, hop]
    have hcontent : turn.op.content = bytes := by
      rw [hop]
      rfl
    rcases create_cases bytes h.clean hfresh hne with ⟨-, e, he⟩ | ⟨hmissing, hsize, hok⟩
    · exact h.of_refused (hcall ▸ he)
    · obtain ⟨hclean, hbytes⟩ : Clean options file _ ∧ _ :=
        published_clean h.clean.single hfresh hsize
      refine h.of_trace (hcall ▸ hok) ?_ ?_
      · intro n hn
        rw [hcontent]
        refine endOf_take_created (hself bytes)
          (staging_between h.clean hfresh hne bytes) ⟨hclean, .inr hbytes⟩ ?_
        intro hlink
        exact hmeets bytes hop hmissing hsize (hlink ▸ hn)
      · intro _
        rw [Script.endOf_append, hcontent]
        exact ⟨hclean, hbytes⟩

-- ===== accepted

/-- A reader answers what may be expected at the path, and a write whose
renames go through answers. -/
structure Accepted (options : DurableStateOptions) (windows : Bool) (file : String)
    (m : Machine) : Prop where
  read : (∃ bytes, some bytes ∈ m.candidates
      ∧ (readDurableStateBytes options windows file m.fs).answer = .ok bytes)
    ∨ none ∈ m.candidates
      ∧ (readDurableStateBytes options windows file m.fs).answer = .error (.errno .enoent)
  writes : ∀ (turn : Turn) (bytes : Bytes), turn.op = .writeDurableStateBytes [] bytes →
    Fresh file m turn → bytes.length ≤ options.maxBytes.val →
    (turn.call options windows file m.fs).answer = .ok ()

theorem Inv.accepted (h : Inv options file m) : Accepted options windows file m where
  read := by
    have hread := h.clean.read windows
    have hcontent := h.content
    rw [hread]
    cases hcase : DurableState.content file m.fs with
    | some bytes =>
      rw [hcase] at hcontent
      exact .inl ⟨bytes, hcontent, rfl⟩
    | none =>
      rw [hcase] at hcontent
      exact .inr ⟨hcontent, rfl⟩
  writes := by
    intro turn bytes hop hfresh hsize
    rw [Turn.call, hop]
    dsimp only
    rcases write_cases windows bytes h.clean hfresh file_ne_tempName [] with
      ⟨-, hlarge⟩ | ⟨-, hok | ⟨hne, -⟩⟩
    · exact absurd hsize (Nat.not_le.2 hlarge)
    · rw [hok]
    · exact absurd rfl hne

-- ===== stuck

/-- The path is one of several names of its file. -/
def Stuck (file : String) (fs : FileSystem) : Prop :=
  ∃ ino, fs.find? file = some ino ∧ (fs.inodes ino).kind = .file ∧ 1 < (fs.stats ino).nlink

section
variable {fs : FileSystem}

def hardLinked (options : DurableStateOptions) : Thrown :=
  invalid options "Hard-linked state files are not permitted."

theorem stable_stuck {stat : Stats} (hkind : stat.kind = .file) (hnlink : 1 < stat.nlink) :
    assertStableRegular options stat fs = ⟨[], .error (hardLinked options)⟩ := by
  rw [assertStableRegular, reads_bind (throwIf_of_not (not_ne_iff.2 hkind)),
    throws_bind (throwIf_of (Nat.ne_of_gt hnlink))]
  rfl

theorem Stuck.call (options : DurableStateOptions) (windows : Bool) (turn : Turn)
    (h : Stuck file fs) : ∃ e, turn.call options windows file fs = ⟨[], .error e⟩ := by
  obtain ⟨ino, hfind, hkind, hnlink⟩ := h
  have htarget : assertReplaceTarget options file fs = ⟨[], .error (hardLinked options)⟩ := by
    rw [assertReplaceTarget, reads_bind (attempt_eq (look_lstat hfind))]
    exact stable_stuck hkind hnlink
  have hmissing : assertMissing options file fs = ⟨[], .error (hardLinked options)⟩ := by
    rw [assertMissing, reads_bind (attempt_eq (look_lstat hfind))]
    dsimp only
    rw [throws_bind (stable_stuck hkind hnlink)]
  have hrefuse : ∀ (bytes : Bytes) (check : Call Unit) (rest : Unit → Call Unit),
      check fs = ⟨[], .error (hardLinked options)⟩ →
      ∃ e, (throwIf (options.maxBytes.val < bytes.length)
        (invalid options "Serialized state exceeds the bounded size.") >>= fun _ =>
          check >>= rest) fs = ⟨[], .error e⟩ := by
    intro bytes check rest hcheck
    by_cases hsize : options.maxBytes.val < bytes.length
    · exact ⟨_, throws_bind (throwIf_of hsize)⟩
    · rw [reads_bind (throwIf_of_not hsize), throws_bind hcheck]
      exact ⟨_, rfl⟩
  rw [Turn.call]
  cases turn.op with
  | writeDurableStateBytes failures bytes =>
    dsimp only
    rw [writeDurableStateBytes]
    exact hrefuse bytes _ _ htarget
  | createDurableStateBytes bytes =>
    dsimp only
    rw [createDurableStateBytes]
    exact hrefuse bytes _ _ hmissing

theorem Stuck.read (h : Stuck file fs) :
    (readDurableStateBytes options windows file fs).answer = .error (hardLinked options) := by
  obtain ⟨ino, hfind, hkind, hnlink⟩ := h
  have hkind' : ((fs.stats ino)).kind = .file := hkind
  have honce : readDurableStateBytesOnce options windows file fs = ⟨[], .error
      (.readRace "State file link topology changed while it was being read.")⟩ := by
    have hreadable : assertReadableRegular options (fs.stats ino)
        "State file link topology changed while it was being read." fs = ⟨[], .error
          (.readRace "State file link topology changed while it was being read.")⟩ := by
      rw [assertReadableRegular, reads_bind (throwIf_of_not (not_ne_iff.2 hkind')),
        throws_bind (throwIf_of (Nat.ne_of_gt hnlink))]
    rw [readDurableStateBytesOnce, reads_bind (look_lstat hfind), throws_bind hreadable]
  have hattempts : ∀ attempts message, readAttempts options windows file attempts message fs
      = ⟨[], .error (hardLinked options)⟩ := by
    intro attempts
    induction attempts with
    | zero =>
      intro message
      rw [readAttempts, persistentRace, reads_bind (attempt_eq (look_lstat hfind))]
      dsimp only
      rw [reads_bind (throwIf_of_not (not_ne_iff.2 hkind')), throws_bind (throwIf_of hnlink)]
      rfl
    | succ attempts ih =>
      intro message
      rw [readAttempts, reads_bind (attempt_eq honce)]
      exact ih _
  rw [readDurableStateBytes, hattempts]

theorem Stuck.not_accepted (h : Stuck file m.fs) : ¬ Accepted options windows file m := by
  intro haccepted
  rcases haccepted.read with ⟨bytes, -, hok⟩ | ⟨-, hmissing⟩
  · rw [h.read] at hok
    cases hok
  · rw [h.read] at hmissing
    cases hmissing

end

theorem Stuck.after (h : Stuck file m.fs) : (turn.after options windows file m).fs = m.fs := by
  obtain ⟨e, he⟩ := h.call options windows turn
  unfold Turn.after
  dsimp only
  rw [he]
  cases turn.crash with
  | some n =>
    show (turn.call options windows file).upTo n m.fs = m.fs
    rw [Script.upTo, he, List.take_nil]
    rfl
  | none => rfl

/-- A path with several names stays stuck in every run. -/
theorem stuck_of_run {turns : List Turn} (h : Stuck file m.fs)
    (hrun : Run (stepsOf (step options windows file)) m turns m') : Stuck file m'.fs := by
  refine hrun.invariant (I := fun m => Stuck file m.fs) h ?_
  intro s t turn hs hstep
  rw [← Option.some.inj hstep, hs.after]
  exact hs

theorem Inv.stuck (windows : Bool) (h : Inv options file m) (hfresh : Fresh file m turn)
    (hslip : ¬ Meets options file m turn) : Stuck file (turn.after options windows file m).fs := by
  rw [Meets] at hslip
  push Not at hslip
  obtain ⟨bytes, hop, hmissing, hsize, hcrash⟩ := hslip
  have hcall : turn.call options windows file = createDurableStateBytes options file
      (tempName file turn.pid turn.uuid) bytes := by
    rw [Turn.call, hop]
  have hfs : (turn.after options windows file m).fs
      = linked (tempName file turn.pid turn.uuid) file m.fs bytes := by
    rcases create_cases bytes h.clean hfresh file_ne_tempName with ⟨hnot, -⟩ | ⟨-, -, hok⟩
    · exact absurd ⟨hmissing, hsize⟩ hnot
    · unfold Turn.after
      dsimp only
      rw [hcrash]
      show (turn.call options windows file).upTo _ m.fs = _
      rw [Script.upTo, hcall, hok]
      exact endOf_take_link
  rw [hfs]
  have hfind : (linked (tempName file turn.pid turn.uuid) file m.fs bytes).find? file
      = some m.fs.unused := by
    rw [linked, find?_named, if_pos rfl]
  refine ⟨m.fs.unused, hfind, ?_, nlink_linked find?_holding⟩
  show ((holding (tempName file turn.pid turn.uuid) m.fs bytes).inodes m.fs.unused).kind = .file
  rw [inodes_holding]

-- ===== runs

/-- A clean directory, of which a reader expects what it holds. -/
def start (file : String) (fs : FileSystem) : Machine where
  fs := fs
  candidates := [DurableState.content file fs]

/-- A step that draws a fresh UUID. -/
abbrev Drawn (options : DurableStateOptions) (windows : Bool) (file : String) :
    Machine → Turn → Machine → Prop :=
  Where (stepsOf (step options windows file)) (Fresh file)

/-- The same, where no crash falls between a link and its removal. -/
abbrev Kept (options : DurableStateOptions) (windows : Bool) (file : String) :
    Machine → Turn → Machine → Prop :=
  Where (Drawn options windows file) (Meets options file)

/-- The invariant of every run. -/
theorem inv_of_run {fs : FileSystem} {turns : List Turn} (hclean : Clean options file fs)
    (hrun : Run (Kept options windows file) (start file fs) turns m) : Inv options file m := by
  refine hrun.invariant ⟨hclean, List.mem_singleton.2 rfl⟩ ?_
  intro s t turn hs hstep
  obtain ⟨⟨hsome, hfresh⟩, hmeets⟩ := hstep
  rw [← Option.some.inj hsome]
  exact hs.after hfresh hmeets

/-- After every run in which no crash falls between a link and its removal,
the path is accepted, and the next call leaves it accepted exactly when
it does not crash there either; if it does, the path is never accepted
again. -/
theorem accepted_iff {fs : FileSystem} {turns : List Turn} (hclean : Clean options file fs)
    (hrun : Run (Kept options windows file) (start file fs) turns m) :
    Accepted options windows file m ∧ ∀ turn m', Drawn options windows file m turn m' →
        (Accepted options windows file m' ↔ Meets options file m turn)
          ∧ (¬ Meets options file m turn → ∀ turns' m'',
            Run (stepsOf (step options windows file)) m' turns' m'' →
              ¬ Accepted options windows file m'') := by
  have hinv := inv_of_run hclean hrun
  refine ⟨hinv.accepted, ?_⟩
  intro turn m' hstep
  obtain ⟨hsome, hfresh⟩ := hstep
  obtain rfl := Option.some.inj hsome
  have hstuck := fun hslip => hinv.stuck windows hfresh hslip
  refine ⟨⟨?_, ?_⟩, ?_⟩
  · intro haccepted
    by_contra hslip
    exact (hstuck hslip).not_accepted haccepted
  · intro hmeets
    exact (hinv.after hfresh hmeets).accepted
  · intro hslip turns' m'' hrun'
    exact (stuck_of_run (hstuck hslip) hrun').not_accepted

end

-- ===== samples

def sampleOptions : DurableStateOptions where
  maxBytes := ⟨1024, by decide⟩
  errorCode := .developerRuntimeOwnershipCorrupt
  invalidMessage := "Developer runtime ownership state is invalid."
  nonempty := by decide

def emptyDirectory : FileSystem where
  entries := []
  inodes := fun _ => { kind := .file, bytes := [] }

theorem emptyDirectory_clean : Clean sampleOptions "state.json" emptyDirectory where
  single := ⟨List.nodup_nil, List.nodup_nil, fun _ hin => (nomatch hin)⟩
  accepted := fun _ hin => (nomatch hin)

/-- The creation of a file of two bytes, cut off after its link. -/
def crashedCreate : Turn where
  op := .createDurableStateBytes [123, 125]
  pid := 7
  uuid := "u1"
  crash := some 5

/-- The crashed creation leaves a path that every later read and write
refuses. -/
theorem crashed_create_rejected :
    Drawn sampleOptions false "state.json" (start "state.json" emptyDirectory) crashedCreate
        (crashedCreate.after sampleOptions false "state.json" (start "state.json" emptyDirectory))
      ∧ ¬ Accepted sampleOptions false "state.json"
        (crashedCreate.after sampleOptions false "state.json"
          (start "state.json" emptyDirectory)) := by
  have hinv : Inv sampleOptions "state.json" (start "state.json" emptyDirectory) :=
    ⟨emptyDirectory_clean, List.mem_singleton.2 rfl⟩
  refine ⟨⟨rfl, rfl⟩, (hinv.stuck false rfl ?_).not_accepted⟩
  intro hmeets
  exact hmeets [123, 125] rfl rfl (by decide) rfl

def sampleWrite (uuid : String) (crash : Option Nat) : Turn where
  op := .writeDurableStateBytes [] [123, 125]
  pid := 7
  uuid := uuid
  crash := crash

/-- A write, and a second one that stops after three calls. -/
theorem accepted_iff_sample : Accepted sampleOptions false "state.json"
    ((sampleWrite "u2" (some 3)).after sampleOptions false "state.json"
      ((sampleWrite "u1" none).after sampleOptions false "state.json"
        (start "state.json" emptyDirectory))) := by
  have hmeets : ∀ m uuid crash, Meets sampleOptions "state.json" m (sampleWrite uuid crash) :=
    fun _ _ _ _ hop => (nomatch hop)
  have hfirst : Kept sampleOptions false "state.json" (start "state.json" emptyDirectory)
      (sampleWrite "u1" none) ((sampleWrite "u1" none).after sampleOptions false "state.json"
        (start "state.json" emptyDirectory)) :=
    ⟨⟨rfl, rfl⟩, hmeets _ _ _⟩
  have hsecond := (accepted_iff emptyDirectory_clean (Run.snoc Run.nil hfirst)).2
    (sampleWrite "u2" (some 3)) _ ⟨rfl, by decide⟩
  exact hsecond.1.2 (hmeets _ _ _)

end OperatorRuntime.DurableState
