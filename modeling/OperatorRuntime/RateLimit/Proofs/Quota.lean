/-
The limiter under a clock that never falls. Entries stand in the order in which
their windows started, so dropping the expired ones from the front drops them
all (`expireEntries_eq`), and a call then moves the entry of a key in one of four
ways (`Moves`). The quota of a key follows from these moves alone.
-/
import OperatorRuntime.Lib.Lookup
import OperatorRuntime.Lib.Windows
import OperatorRuntime.RateLimit.RateLimiter

namespace OperatorRuntime.RateLimit

open Lib

variable {limiter : FixedWindowRateLimiter} {entries entries' : List Entry} {key : String}
  {clock clock' now : ℚ}

-- ===== calls

inductive Call
  | hit (keyInput : String) (now : ℚ)
  | isLimited (keyInput : String) (now : ℚ)
  | clear (keyInput : String)

namespace Call

def keyInput : Call → String
  | .hit keyInput _ => keyInput
  | .isLimited keyInput _ => keyInput
  | .clear keyInput => keyInput

def reading : Call → Option ℚ
  | .hit _ now => some now
  | .isLimited _ now => some now
  | .clear _ => none

end Call

def step (limiter : FixedWindowRateLimiter) (entries : List Entry) : Call → List Entry
  | .hit keyInput now => (limiter.hit keyInput now entries).2
  | .isLimited keyInput now => (limiter.isLimited keyInput now entries).2
  | .clear keyInput => (clear keyInput entries).2

def run (limiter : FixedWindowRateLimiter) (entries : List Entry) (calls : List Call) : List Entry :=
  calls.foldl (step limiter) entries

/-- The clock never falls. -/
def Nondecreasing (calls : List Call) : Prop :=
  (calls.filterMap Call.reading).Pairwise (· ≤ ·)

/-- A hit that was allowed: when, and the start of the window it counts in,
which is its own time if it left its key no entry. -/
structure Served where
  time : ℚ
  windowStartedAt : ℚ

def servedBy (limiter : FixedWindowRateLimiter) (key : String) (entries : List Entry) :
    Call → List Served
  | .hit keyInput now =>
    if keyInput = key ∧ ((limiter.hit keyInput now entries).1.toOption.any (·.allowed)) = true then
      [{ time := now
         windowStartedAt :=
           (get (limiter.hit keyInput now entries).2 key).elim now (·.windowStartedAt) }]
    else []
  | _ => []

def served (limiter : FixedWindowRateLimiter) (key : String) : List Entry → List Call → List Served
  | _, [] => []
  | entries, call :: calls =>
    servedBy limiter key entries call ++ served limiter key (step limiter entries call) calls

-- ===== the order

/-- Entries at a reading of the clock. -/
structure Ordered (limiter : FixedWindowRateLimiter) (clock : ℚ) (entries : List Entry) : Prop where
  keys : (entries.map Entry.key).Nodup
  starts : entries.Pairwise fun a b => a.windowStartedAt ≤ b.windowStartedAt
  past : ∀ entry ∈ entries, entry.windowStartedAt ≤ clock
  size : entries.length ≤ limiter.maxKeys

theorem ordered_nil : Ordered limiter clock [] :=
  ⟨List.nodup_nil, .nil, fun _ h => (nomatch h), Nat.zero_le _⟩

namespace Ordered

theorem mono (h : Ordered limiter clock entries) (hle : clock ≤ clock') :
    Ordered limiter clock' entries :=
  ⟨h.keys, h.starts, fun entry he => (h.past entry he).trans hle, h.size⟩

theorem filter (h : Ordered limiter clock entries) (p : Entry → Bool) :
    Ordered limiter clock (entries.filter p) where
  keys := h.keys.sublist (List.filter_sublist.map _)
  starts := h.starts.filter p
  past entry he := h.past entry ((List.mem_filter.1 he).1)
  size := (List.length_filter_le _ _).trans h.size

theorem expireEntries_eq (h : Ordered limiter clock entries) (now : ℚ) :
    limiter.expireEntries now entries = entries.filter (limiter.running now) := by
  have hstarts := h.starts
  rw [FixedWindowRateLimiter.expireEntries]
  clear h
  induction entries with
  | nil => rfl
  | cons a entries ih =>
    obtain ⟨hfirst, hrest⟩ := List.pairwise_cons.1 hstarts
    by_cases ha : limiter.running now a = true
    · rw [List.dropWhile_cons_of_neg (by simp [ha]), List.filter_eq_self.2]
      intro b hb
      rcases List.mem_cons.1 hb with rfl | hb
      · exact ha
      · have hle := hfirst b hb
        simp only [FixedWindowRateLimiter.running, decide_eq_true_eq] at ha ⊢
        linarith
    · rw [List.dropWhile_cons_of_pos (by simp [ha]), List.filter_cons_of_neg ha]
      exact ih hrest

theorem mem_of_get (h : Ordered limiter clock entries) {entry : Entry} :
    get entries key = some entry ↔ entry ∈ entries ∧ entry.key = key :=
  find?_key_eq_some h.keys

theorem get_filter (h : Ordered limiter clock entries) (p : Entry → Bool) :
    get (entries.filter p) key = (get entries key).filter p := by
  apply Option.ext
  intro entry
  rw [(h.filter p).mem_of_get, List.mem_filter, Option.filter_eq_some_iff, h.mem_of_get]
  tauto

theorem append (h : Ordered limiter clock entries) {entry : Entry}
    (hnew : get entries entry.key = none) (hstart : entry.windowStartedAt = clock)
    (hsize : entries.length < limiter.maxKeys) : Ordered limiter clock (entries ++ [entry]) where
  keys := nodup_key_append h.keys (find?_key_eq_none.1 hnew)
  starts := by
    rw [List.pairwise_append]
    refine ⟨h.starts, List.pairwise_singleton _ _, ?_⟩
    intro a ha b hb
    rw [List.mem_singleton.1 hb, hstart]
    exact h.past a ha
  past := by
    intro a ha
    rcases List.mem_append.1 ha with ha | ha
    · exact h.past a ha
    · rw [List.mem_singleton.1 ha, hstart]
  size := by
    rw [List.length_append, List.length_singleton]
    exact hsize

theorem count (h : Ordered limiter clock entries) (key : String) : Ordered limiter clock
      (updateFirst (fun e => e.key == key) (fun e => { e with count := e.count + 1 }) entries) where
  keys := by
    have hsame := map_updateFirst (p := fun e : Entry => e.key == key)
      (f := fun e => { e with count := e.count + 1 }) (g := Entry.key) (fun _ _ => rfl) entries
    rw [hsame]
    exact h.keys
  starts := by
    have hsame := map_updateFirst (p := fun e : Entry => e.key == key)
      (f := fun e => { e with count := e.count + 1 }) (g := Entry.windowStartedAt)
      (fun _ _ => rfl) entries
    have hstarts := h.starts
    rw [← List.pairwise_map (R := (· ≤ ·))] at hstarts ⊢
    rwa [hsame]
  past := by
    intro entry he
    rcases mem_updateFirst he with he | ⟨a, ha, -, rfl⟩
    · exact h.past entry he
    · exact h.past a ha
  size := by
    rw [length_updateFirst]
    exact h.size

end Ordered

theorem Ordered.get_count (h : Ordered limiter clock entries) (keyInput key : String) :
    get (updateFirst (fun e => e.key == keyInput) (fun e => { e with count := e.count + 1 }) entries)
        key
      = if key = keyInput then (get entries key).map fun e => { e with count := e.count + 1 }
        else get entries key := by
  have hkeys := h.keys
  clear h
  induction entries with
  | nil => simp [get, updateFirst]
  | cons a entries ih =>
    have hrest := ih (List.nodup_cons.1 hkeys).2
    rw [get] at hrest ⊢
    by_cases ha : a.key = keyInput
    · by_cases hk : key = keyInput
      · simp [updateFirst, get, ha, hk]
      · have hne : ¬ keyInput = key := fun heq => hk heq.symm
        simp [updateFirst, get, ha, hk, hne]
    · by_cases hk : a.key = key
      · have hne : ¬ key = keyInput := fun heq => ha (hk.trans heq)
        simp [updateFirst, get, hk, hne]
      · have hskip : get (a :: entries) key = get entries key :=
          List.find?_cons_of_neg (by simpa using hk)
        rw [updateFirst, if_neg (by simpa using ha), List.find?_cons_of_neg (by simpa using hk),
          hrest, hskip]

-- ===== one call

theorem running_iff {entry : Entry} :
    limiter.running now entry = true ↔ now < entry.windowStartedAt + limiter.windowMs := by
  rw [FixedWindowRateLimiter.running, decide_eq_true_eq, sub_lt_iff_lt_add']

theorem not_running_iff {entry : Entry} :
    limiter.running now entry = false ↔ entry.windowStartedAt + limiter.windowMs ≤ now := by
  rw [← Bool.not_eq_true, running_iff, not_lt]

theorem boundedKey_eq {value : String} (h : boundedKey value = .ok key) : value = key := by
  simp only [boundedKey, bind_eq_ok] at h
  obtain ⟨_, -, h⟩ := h
  exact Except.ok.inj h

def live (limiter : FixedWindowRateLimiter) (now : ℚ) (entries : List Entry) : List Entry :=
  entries.filter (limiter.running now)

def fresh (key : String) (now : ℚ) : Entry where
  key := key
  count := 1
  windowStartedAt := now

theorem live_delete (hnone : ∀ entry ∈ get entries key, limiter.running now entry = false)
    (h : Ordered limiter clock entries) :
    live limiter now (delete entries key) = live limiter now entries := by
  rw [live, live, delete, List.filter_filter]
  refine List.filter_congr fun entry he => ?_
  by_cases hkey : entry.key = key
  · rw [hnone entry (h.mem_of_get.2 ⟨he, hkey⟩), Bool.false_and]
  · simp [hkey]

theorem running_or_ended (limiter : FixedWindowRateLimiter) (key : String) (now : ℚ)
    (entries : List Entry) :
    (∃ entry, get entries key = some entry ∧ limiter.running now entry = true)
    ∨ ∀ entry ∈ get entries key, limiter.running now entry = false := by
  cases hget : get entries key with
  | none => exact .inr fun _ he => (nomatch he)
  | some entry =>
    cases hrunning : limiter.running now entry with
    | true => exact .inl ⟨entry, rfl, hrunning⟩
    | false =>
      refine .inr fun e he => ?_
      rw [← Option.some.inj he]
      exact hrunning

theorem hit_running (hkey : boundedKey key = .ok key) {entry : Entry}
    (hget : get entries key = some entry) (hrunning : limiter.running now entry = true) :
    limiter.hit key now entries
    = (.ok (limiter.hitDecision now { entry with count := entry.count + 1 }),
        updateFirst (fun e => e.key == key) (fun e => { e with count := e.count + 1 }) entries) := by
  rw [FixedWindowRateLimiter.hit, hkey]
  simp only [hget, hrunning, if_true]

theorem hit_ended (h : Ordered limiter clock entries) (hkey : boundedKey key = .ok key)
    (hended : ∀ entry ∈ get entries key, limiter.running now entry = false) :
    limiter.hit key now entries = if limiter.maxKeys ≤ (live limiter now entries).length then
          (.ok (limiter.saturatedDecision now (live limiter now entries)), live limiter now entries)
        else (.ok (limiter.hitDecision now (fresh key now)),
          live limiter now entries ++ [fresh key now]) := by
  have hnew : ∀ kept : List Entry, limiter.expireEntries now kept = live limiter now entries →
      (limiter.hitNew key now kept).map .ok id
        = if limiter.maxKeys ≤ (live limiter now entries).length then
            (.ok (limiter.saturatedDecision now (live limiter now entries)), live limiter now entries)
          else ((.ok (limiter.hitDecision now (fresh key now)) : Result _),
            live limiter now entries ++ [fresh key now]) := by
    intro kept hkept
    rw [FixedWindowRateLimiter.hitNew, hkept]
    split
    · rfl
    · rfl
  rw [FixedWindowRateLimiter.hit, hkey]
  cases hget : get entries key with
  | none =>
    simp only [hget]
    exact hnew entries (h.expireEntries_eq now)
  | some entry =>
    have hdropped := (h.filter fun e => e.key != key).expireEntries_eq now
    simp only [hget, hended entry hget, Bool.false_eq_true, if_false]
    exact hnew (delete entries key) (hdropped.trans (live_delete hended h))

theorem isLimited_running (hkey : boundedKey key = .ok key) {entry : Entry}
    (hget : get entries key = some entry) (hrunning : limiter.running now entry = true) :
    (limiter.isLimited key now entries).2 = entries := by
  rw [FixedWindowRateLimiter.isLimited, hkey]
  simp only [hget, hrunning, if_true]

theorem isLimited_ended (h : Ordered limiter clock entries) (hkey : boundedKey key = .ok key)
    (hended : ∀ entry ∈ get entries key, limiter.running now entry = false) :
    limiter.isLimited key now entries = if limiter.maxKeys ≤ (live limiter now entries).length then
          (.ok (limiter.saturatedDecision now (live limiter now entries)), live limiter now entries)
        else (.ok { allowed := true, remaining := limiter.limit, retryAfterSeconds := 1 },
          live limiter now entries) := by
  have hnew : ∀ kept : List Entry, limiter.expireEntries now kept = live limiter now entries →
      (limiter.isLimitedNew now kept).map .ok id
        = if limiter.maxKeys ≤ (live limiter now entries).length then
            (.ok (limiter.saturatedDecision now (live limiter now entries)), live limiter now entries)
          else ((.ok { allowed := true, remaining := limiter.limit, retryAfterSeconds := 1 }
              : Result _), live limiter now entries) := by
    intro kept hkept
    rw [FixedWindowRateLimiter.isLimitedNew, hkept]
    split
    · rfl
    · rfl
  rw [FixedWindowRateLimiter.isLimited, hkey]
  cases hget : get entries key with
  | none =>
    simp only [hget]
    exact hnew entries (h.expireEntries_eq now)
  | some entry =>
    have hdropped := (h.filter fun e => e.key != key).expireEntries_eq now
    simp only [hget, hended entry hget, Bool.false_eq_true, if_false]
    exact hnew (delete entries key) (hdropped.trans (live_delete hended h))

def Call.after (call : Call) (clock : ℚ) : ℚ :=
  call.reading.getD clock

/-- How a call moves the entry of a key that it does not clear, and the hits of
the key it serves. -/
inductive Moves (limiter : FixedWindowRateLimiter) (now : ℚ) (before after : Option Entry) :
    List Served → Prop
  | kept (hkept : after = before) : Moves limiter now before after []
  | expired {entry : Entry} (hbefore : before = some entry)
      (hended : limiter.running now entry = false) (hafter : after = none) :
      Moves limiter now before after []
  | counted {entry : Entry} {hits : List Served} (hbefore : before = some entry)
      (hrunning : limiter.running now entry = true)
      (hafter : after = some { entry with count := entry.count + 1 })
      (hhits : hits = if entry.count + 1 ≤ limiter.limit then [⟨now, entry.windowStartedAt⟩] else []) :
      Moves limiter now before after hits
  | opened (hended : ∀ entry ∈ before, limiter.running now entry = false) {entry : Entry}
      (hafter : after = some entry) (hcount : entry.count = 1) (hstart : entry.windowStartedAt = now) :
      Moves limiter now before after [⟨now, now⟩]

theorem moves_filter (before : Option Entry) :
    Moves limiter now before (before.filter (limiter.running now)) [] := by
  cases before with
  | none => exact .kept rfl
  | some entry =>
    cases hrunning : limiter.running now entry with
    | true => exact .kept (Option.filter_some_pos hrunning)
    | false => exact .expired rfl hrunning (Option.filter_some_neg (by simp [hrunning]))

theorem Ordered.moves_live (h : Ordered limiter clock entries) :
    Moves limiter now (get entries key) (get (live limiter now entries) key) [] := by
  rw [live, h.get_filter]
  exact moves_filter _

theorem servedBy_hit {keyInput : String} {d : RateLimitDecision} {after : List Entry}
    (hcall : limiter.hit keyInput now entries = (.ok d, after)) :
    servedBy limiter key entries (.hit keyInput now) = if keyInput = key ∧ d.allowed = true then
          [⟨now, (get after key).elim now (·.windowStartedAt)⟩] else [] := by
  rw [servedBy, hcall]
  rfl

theorem servedBy_other {keyInput : String} (h : keyInput ≠ key) :
    servedBy limiter key entries (.hit keyInput now) = [] := by
  rw [servedBy, if_neg]
  intro hboth
  exact h hboth.1

theorem get_hit_other (h : Ordered limiter clock entries) {keyInput : String} (hne : keyInput ≠ key)
    (now : ℚ) : get (limiter.hit keyInput now entries).2 key = get entries key
    ∨ get (limiter.hit keyInput now entries).2 key = get (live limiter now entries) key := by
  cases hkey : boundedKey keyInput with
  | error e =>
    rw [FixedWindowRateLimiter.hit, hkey]
    exact .inl rfl
  | ok bounded =>
    obtain rfl := boundedKey_eq hkey
    rcases running_or_ended limiter keyInput now entries with ⟨entry, hget, hrunning⟩ | hended
    · refine .inl ?_
      rw [hit_running hkey hget hrunning]
      show get (updateFirst _ _ entries) key = _
      rw [h.get_count, if_neg fun heq => hne heq.symm]
    · refine .inr ?_
      rw [hit_ended h hkey hended]
      split
      · rfl
      · show get (live limiter now entries ++ [fresh keyInput now]) key = _
        rw [get, List.find?_append]
        simp [get, fresh, hne]

theorem get_isLimited (h : Ordered limiter clock entries) (keyInput key : String) (now : ℚ) :
    get (limiter.isLimited keyInput now entries).2 key = get entries key
    ∨ get (limiter.isLimited keyInput now entries).2 key = get (live limiter now entries) key := by
  cases hkey : boundedKey keyInput with
  | error e =>
    rw [FixedWindowRateLimiter.isLimited, hkey]
    exact .inl rfl
  | ok bounded =>
    obtain rfl := boundedKey_eq hkey
    rcases running_or_ended limiter keyInput now entries with ⟨entry, hget, hrunning⟩ | hended
    · refine .inl ?_
      rw [isLimited_running hkey hget hrunning]
    · refine .inr ?_
      rw [isLimited_ended h hkey hended]
      split
      · rfl
      · rfl

theorem moves_hit (h : Ordered limiter clock entries) (keyInput key : String) (now : ℚ) :
    Moves limiter now (get entries key) (get (limiter.hit keyInput now entries).2 key)
      (servedBy limiter key entries (.hit keyInput now)) := by
  cases hkey : boundedKey keyInput with
  | error e =>
    have hcall : limiter.hit keyInput now entries = (.error e, entries) := by
      rw [FixedWindowRateLimiter.hit, hkey]
    have hnone : servedBy limiter key entries (.hit keyInput now) = [] := by
      rw [servedBy, hcall]
      simp [Except.toOption]
    rw [hcall, hnone]
    exact .kept rfl
  | ok bounded =>
    obtain rfl := boundedKey_eq hkey
    by_cases hsame : keyInput = key
    · subst hsame
      rcases running_or_ended limiter keyInput now entries with ⟨entry, hget, hrunning⟩ | hended
      · have hcall := hit_running hkey hget hrunning
        have hafter : get (limiter.hit keyInput now entries).2 keyInput
            = some { entry with count := entry.count + 1 } := by
          rw [hcall]
          show get (updateFirst _ _ entries) keyInput = _
          rw [h.get_count, if_pos rfl, hget]
          rfl
        refine .counted hget hrunning hafter ?_
        rw [servedBy_hit hcall]
        rw [hcall] at hafter
        simp [hafter, FixedWindowRateLimiter.hitDecision]
      · have hcall := hit_ended h hkey hended
        by_cases hfull : limiter.maxKeys ≤ (live limiter now entries).length
        · rw [if_pos hfull] at hcall
          have hnone : servedBy limiter keyInput entries (.hit keyInput now) = [] := by
            rw [servedBy_hit hcall, if_neg]
            intro hboth
            cases hboth.2
          rw [hnone, hcall]
          exact h.moves_live
        · rw [if_neg hfull] at hcall
          have hgone : get (live limiter now entries) keyInput = none := by
            rw [live, h.get_filter]
            cases hget : get entries keyInput with
            | none => rfl
            | some entry => exact Option.filter_some_neg (by simp [hended entry hget])
          have hlast : get (live limiter now entries ++ [fresh keyInput now]) keyInput
              = some (fresh keyInput now) := by
            rw [get, List.find?_append]
            rw [get] at hgone
            rw [hgone]
            simp [fresh]
          have hserved : servedBy limiter keyInput entries (.hit keyInput now) = [⟨now, now⟩] := by
            rw [servedBy_hit hcall, hlast, if_pos ⟨rfl, decide_eq_true limiter.limit_pos⟩]
            rfl
          rw [hserved, hcall]
          exact .opened hended hlast rfl rfl
    · rw [servedBy_other hsame]
      rcases get_hit_other h hsame now with hkept | hlive
      · exact .kept hkept
      · exact hlive ▸ h.moves_live

theorem moves_isLimited (h : Ordered limiter clock entries) (keyInput key : String) (now : ℚ) :
    Moves limiter now (get entries key) (get (limiter.isLimited keyInput now entries).2 key) [] := by
  rcases get_isLimited h keyInput key now with hkept | hlive
  · exact .kept hkept
  · exact hlive ▸ h.moves_live

theorem get_clear (h : Ordered limiter clock entries) {keyInput : String} (hne : keyInput ≠ key) :
    get (clear keyInput entries).2 key = get entries key := by
  rw [clear]
  cases hkey : boundedKey keyInput with
  | error e => rfl
  | ok bounded =>
    obtain rfl := boundedKey_eq hkey
    show get (entries.filter fun e => e.key != keyInput) key = _
    rw [h.get_filter]
    cases hget : get entries key with
    | none => rfl
    | some entry =>
      have hentry := (h.mem_of_get.1 hget).2
      exact Option.filter_some_pos (by simpa [hentry] using hne.symm)

/-- One call moves the entry of a key in one of the four ways. -/
theorem moves_step (h : Ordered limiter clock entries) {call : Call} (hclear : call ≠ .clear key) :
    Moves limiter (call.after clock) (get entries key) (get (step limiter entries call) key)
      (servedBy limiter key entries call) := by
  cases call with
  | hit keyInput now => exact moves_hit h keyInput key now
  | isLimited keyInput now => exact moves_isLimited h keyInput key now
  | clear keyInput =>
    refine .kept (get_clear h ?_)
    intro heq
    exact hclear (congrArg Call.clear heq)

/-- One call leaves the entries in the order of their windows. -/
theorem ordered_step (h : Ordered limiter clock entries) {call : Call}
    (hclock : clock ≤ call.after clock) :
    Ordered limiter (call.after clock) (step limiter entries call) := by
  cases call with
  | hit keyInput now =>
    have hlater := h.mono hclock
    show Ordered limiter now (limiter.hit keyInput now entries).2
    cases hkey : boundedKey keyInput with
    | error e =>
      rw [FixedWindowRateLimiter.hit, hkey]
      exact hlater
    | ok bounded =>
      obtain rfl := boundedKey_eq hkey
      rcases running_or_ended limiter keyInput now entries with ⟨entry, hget, hrunning⟩ | hended
      · rw [hit_running hkey hget hrunning]
        exact hlater.count keyInput
      · rw [hit_ended h hkey hended]
        split
        · exact hlater.filter _
        · next hfull =>
          refine (hlater.filter _).append ?_ rfl (not_le.1 hfull)
          rw [h.get_filter]
          cases hget : get entries (fresh keyInput now).key with
          | none => rfl
          | some entry => exact Option.filter_some_neg (by simp [hended entry hget])
  | isLimited keyInput now =>
    have hlater := h.mono hclock
    show Ordered limiter now (limiter.isLimited keyInput now entries).2
    cases hkey : boundedKey keyInput with
    | error e =>
      rw [FixedWindowRateLimiter.isLimited, hkey]
      exact hlater
    | ok bounded =>
      obtain rfl := boundedKey_eq hkey
      rcases running_or_ended limiter keyInput now entries with ⟨entry, hget, hrunning⟩ | hended
      · rw [isLimited_running hkey hget hrunning]
        exact hlater
      · rw [isLimited_ended h hkey hended]
        split
        · exact hlater.filter _
        · exact hlater.filter _
  | clear keyInput =>
    show Ordered limiter clock (clear keyInput entries).2
    rw [clear]
    cases hkey : boundedKey keyInput with
    | error e => exact h
    | ok bounded => exact h.filter _

-- ===== runs

/-- The clock and its readings in the calls, in order. -/
def Readings (clock : ℚ) (calls : List Call) : Prop :=
  (clock :: calls.filterMap Call.reading).Pairwise (· ≤ ·)

variable {call : Call} {calls : List Call}

theorem Readings.head (h : Readings clock (call :: calls)) : clock ≤ call.after clock := by
  cases hreading : call.reading with
  | none =>
    rw [Call.after, hreading]
    exact le_refl _
  | some now =>
    rw [Call.after, hreading]
    rw [Readings, List.filterMap_cons_some hreading] at h
    exact (List.pairwise_cons.1 h).1 now (List.mem_cons_self ..)

theorem Readings.tail (h : Readings clock (call :: calls)) : Readings (call.after clock) calls := by
  cases hreading : call.reading with
  | none =>
    rw [Call.after, hreading]
    rwa [Readings, List.filterMap_cons_none hreading] at h
  | some now =>
    rw [Call.after, hreading]
    rw [Readings, List.filterMap_cons_some hreading] at h
    exact (List.pairwise_cons.1 h).2

theorem Nondecreasing.exists_clock (h : Nondecreasing calls) : ∃ clock, Readings clock calls := by
  cases hreadings : calls.filterMap Call.reading with
  | nil => exact ⟨0, by simp [Readings, hreadings]⟩
  | cons now later =>
    rw [Nondecreasing, hreadings] at h
    refine ⟨now, ?_⟩
    rw [Readings, hreadings]
    refine List.pairwise_cons.2 ⟨?_, h⟩
    intro reading hreading
    rcases List.mem_cons.1 hreading with rfl | hlater
    · exact le_refl _
    · exact (List.pairwise_cons.1 h).1 reading hlater

theorem Readings.append (limiter : FixedWindowRateLimiter) {later : List Call}
    (h : Readings clock (calls ++ later)) : ∃ clock', (∀ entries, Ordered limiter clock entries →
        Ordered limiter clock' (run limiter entries calls)) ∧ Readings clock' later := by
  induction calls generalizing clock with
  | nil => exact ⟨clock, fun entries hordered => hordered, h⟩
  | cons call calls ih =>
    obtain ⟨clock', hordered, hlater⟩ := ih (Readings.tail h)
    exact ⟨clock', fun entries hentries => hordered _ (ordered_step hentries h.head), hlater⟩

-- ===== quotas

theorem windowMs_pos (limiter : FixedWindowRateLimiter) : (0 : ℚ) < limiter.windowMs := by
  have hle := limiter.windowMs_ge
  exact_mod_cast (by omega : 0 < limiter.windowMs)

/-- The next window of the key is that of `start` or one after its end. -/
def Follows (limiter : FixedWindowRateLimiter) (start clock : ℚ) : Option Entry → Prop
  | some entry => entry.windowStartedAt = start ∨ start + limiter.windowMs ≤ entry.windowStartedAt
  | none => start + limiter.windowMs ≤ clock

/-- The hits that one window can still be given. -/
def room (limiter : FixedWindowRateLimiter) (start clock : ℚ) : Option Entry → ℕ
  | some entry =>
    if entry.windowStartedAt = start then limiter.limit - entry.count
    else if start < entry.windowStartedAt then 0 else limiter.limit
  | none => if start < clock then 0 else limiter.limit

variable {before after : Option Entry} {hits : List Served} {start : ℚ}

namespace Moves

theorem follows (h : Moves limiter now before after hits) (hclock : clock ≤ now)
    (hfollows : Follows limiter start clock before) : Follows limiter start now after := by
  cases h with
  | kept hkept =>
    subst hkept
    cases after with
    | none => exact le_trans hfollows hclock
    | some entry => exact hfollows
  | expired hbefore hended hafter =>
    subst hbefore hafter
    have hend := not_running_iff.1 hended
    have hpos := windowMs_pos limiter
    rcases hfollows with hsame | hlater
    · exact hsame ▸ hend
    · exact le_trans hlater (le_trans (by linarith) hend)
  | counted hbefore hrunning hafter hhits =>
    subst hbefore hafter
    exact hfollows
  | opened hended hafter hcount hstart =>
    subst hafter
    refine .inr ?_
    rw [hstart]
    cases before with
    | none => exact le_trans hfollows hclock
    | some entry =>
      have hend := not_running_iff.1 (hended entry rfl)
      have hpos := windowMs_pos limiter
      rcases hfollows with hsame | hlater
      · exact hsame ▸ hend
      · linarith

theorem served (h : Moves limiter now before after hits)
    (hpast : ∀ entry ∈ before, entry.windowStartedAt ≤ now) :
    hits.length ≤ 1 ∧ ∀ hit ∈ hits, hit.time = now ∧ hit.windowStartedAt ≤ now
    ∧ now < hit.windowStartedAt + limiter.windowMs
    ∧ ∃ entry, after = some entry ∧ entry.windowStartedAt = hit.windowStartedAt := by
  cases h with
  | kept hkept => exact ⟨Nat.zero_le _, fun _ hin => (nomatch hin)⟩
  | expired hbefore hended hafter => exact ⟨Nat.zero_le _, fun _ hin => (nomatch hin)⟩
  | counted hbefore hrunning hafter hhits =>
    subst hhits
    constructor
    · split
      · exact le_refl _
      · exact Nat.zero_le _
    · intro hit hin
      split at hin
      · rw [List.mem_singleton.1 hin]
        exact ⟨rfl, hpast _ hbefore, running_iff.1 hrunning, _, hafter, rfl⟩
      · cases hin
  | opened hended hafter hcount hstart =>
    refine ⟨le_refl _, ?_⟩
    intro hit hin
    rw [List.mem_singleton.1 hin]
    exact ⟨rfl, le_refl _, lt_add_of_pos_right _ (windowMs_pos limiter), _, hafter, hstart⟩

theorem room_of_ended (hended : ∀ entry ∈ before, limiter.running now entry = false)
    (hclock : clock ≤ now) (start : ℚ) :
    (if start < now then 0 else limiter.limit) ≤ room limiter start clock before := by
  by_cases hstart : start < now
  · rw [if_pos hstart]
    exact Nat.zero_le _
  · rw [if_neg hstart]
    cases before with
    | none =>
      rw [room, if_neg]
      intro hlt
      exact hstart (lt_of_lt_of_le hlt hclock)
    | some entry =>
      have hend := not_running_iff.1 (hended entry rfl)
      have hpos := windowMs_pos limiter
      rw [room, if_neg, if_neg]
      · intro hlt
        exact hstart (by linarith)
      · intro heq
        exact hstart (by linarith)

theorem room_le (h : Moves limiter now before after hits) (hclock : clock ≤ now) (start : ℚ) :
    (hits.filter fun hit => hit.windowStartedAt = start).length + room limiter start now after
    ≤ room limiter start clock before := by
  cases h with
  | kept hkept =>
    subst hkept
    rw [List.filter_nil, List.length_nil, Nat.zero_add]
    cases after with
    | none =>
      refine room_of_ended ?_ hclock start
      intro entry he
      cases he
    | some entry => exact le_refl _
  | expired hbefore hended hafter =>
    subst hafter
    rw [List.filter_nil, List.length_nil, Nat.zero_add]
    refine room_of_ended ?_ hclock start
    intro entry he
    rw [hbefore, Option.mem_some_iff] at he
    exact he ▸ hended
  | counted hbefore hrunning hafter hhits =>
    subst hbefore hafter hhits
    rename_i entry
    rw [room, room]
    dsimp only
    by_cases hstart : entry.windowStartedAt = start
    · rw [if_pos hstart, if_pos hstart]
      split
      · next hallowed =>
        rw [List.filter_cons_of_pos (by simpa using hstart), List.filter_nil, List.length_singleton]
        omega
      · rw [List.filter_nil, List.length_nil]
        omega
    · rw [if_neg hstart, if_neg hstart]
      split
      · rw [List.filter_cons_of_neg (by simpa using hstart), List.filter_nil, List.length_nil,
          Nat.zero_add]
      · rw [List.filter_nil, List.length_nil, Nat.zero_add]
  | opened hended hafter hcount hstart =>
    subst hafter
    refine le_trans ?_ (room_of_ended hended hclock start)
    rw [room, hstart, hcount]
    have hlimit := limiter.limit_pos
    by_cases hnow : now = start
    · rw [List.filter_cons_of_pos (by simpa using hnow), List.filter_nil, List.length_singleton,
        if_pos hnow, if_neg (hnow ▸ lt_irrefl _)]
      omega
    · rw [List.filter_cons_of_neg (by simpa using hnow), List.filter_nil, List.length_nil,
        if_neg hnow, Nat.zero_add]

end Moves

/-- The calls clear the key nowhere. -/
def NotCleared (key : String) (calls : List Call) : Prop :=
  ∀ call ∈ calls, call ≠ .clear key

theorem past_get (h : Ordered limiter clock entries) (hle : clock ≤ now) :
    ∀ entry ∈ get entries key, entry.windowStartedAt ≤ now :=
  fun entry he => (h.past entry (h.mem_of_get.1 he).1).trans hle

theorem served_le_room (h : Ordered limiter clock entries) (hreadings : Readings clock calls)
    (hclear : NotCleared key calls) (start : ℚ) :
    ((served limiter key entries calls).filter fun hit => hit.windowStartedAt = start).length
    ≤ room limiter start clock (get entries key) := by
  induction calls generalizing clock entries with
  | nil => exact Nat.zero_le _
  | cons call calls ih =>
    have hmoves := moves_step h (hclear call (List.mem_cons_self ..))
    have hrest := ih (ordered_step h hreadings.head) hreadings.tail
      fun c hc => hclear c (List.mem_cons_of_mem _ hc)
    have hroom := hmoves.room_le hreadings.head start
    rw [served, List.filter_append, List.length_append]
    omega

theorem room_le_limit (start clock : ℚ) (entry : Option Entry) :
    room limiter start clock entry ≤ limiter.limit := by
  cases entry with
  | none =>
    rw [room]
    split
    · exact Nat.zero_le _
    · exact le_refl _
  | some entry =>
    rw [room]
    split
    · exact Nat.sub_le _ _
    · split
      · exact Nat.zero_le _
      · exact le_refl _

theorem served_follow (h : Ordered limiter clock entries) (hreadings : Readings clock calls)
    (hclear : NotCleared key calls) (hfollows : Follows limiter start clock (get entries key)) :
    ∀ hit ∈ served limiter key entries calls,
      start = hit.windowStartedAt ∨ start + limiter.windowMs ≤ hit.windowStartedAt := by
  induction calls generalizing clock entries with
  | nil =>
    intro hit hin
    cases hin
  | cons call calls ih =>
    have hmoves := moves_step h (hclear call (List.mem_cons_self ..))
    have hnext := hmoves.follows hreadings.head hfollows
    intro hit hin
    rcases List.mem_append.1 hin with hnow | hlater
    · obtain ⟨-, hserved⟩ := hmoves.served (past_get h hreadings.head)
      obtain ⟨-, -, -, entry, hentry, hstart⟩ := hserved hit hnow
      rw [hentry] at hnext
      rcases hnext with hsame | hafter
      · exact .inl (hsame.symm.trans hstart)
      · exact .inr (hstart ▸ hafter)
    · exact ih (ordered_step h hreadings.head) hreadings.tail
        (fun c hc => hclear c (List.mem_cons_of_mem _ hc)) hnext hit hlater

theorem inWindows_served (h : Ordered limiter clock entries) (hreadings : Readings clock calls)
    (hclear : NotCleared key calls) :
    InWindows Served.time Served.windowStartedAt (limiter.windowMs : ℚ)
      (served limiter key entries calls) := by
  induction calls generalizing clock entries with
  | nil => exact ⟨fun _ hin => (nomatch hin), fun _ hin => (nomatch hin), .nil⟩
  | cons call calls ih =>
    have hmoves := moves_step h (hclear call (List.mem_cons_self ..))
    have hlater : NotCleared key calls := fun c hc => hclear c (List.mem_cons_of_mem _ hc)
    have hordered := ordered_step h hreadings.head
    have hrest := ih hordered hreadings.tail hlater
    obtain ⟨hlength, hserved⟩ := hmoves.served (past_get h hreadings.head)
    constructor
    · intro hit hin
      rcases List.mem_append.1 hin with hnow | hin
      · obtain ⟨htime, hstart, -⟩ := hserved hit hnow
        exact htime ▸ hstart
      · exact hrest.starts hit hin
    · intro hit hin
      rcases List.mem_append.1 hin with hnow | hin
      · obtain ⟨htime, -, hend, -⟩ := hserved hit hnow
        exact htime ▸ hend
      · exact hrest.ends hit hin
    · rw [served, List.pairwise_append]
      refine ⟨?_, hrest.apart, ?_⟩
      · match hnow : servedBy limiter key entries call with
        | [] => exact .nil
        | [hit] => exact List.pairwise_singleton _ _
        | _ :: _ :: _ =>
          rw [hnow] at hlength
          simp at hlength
      · intro hit hnow later hin
        obtain ⟨-, -, -, entry, hentry, hstart⟩ := hserved hit hnow
        refine served_follow hordered hreadings.tail hlater ?_ later hin
        rw [hentry]
        exact .inl hstart

-- ===== the limiter

/-- What the limiter keeps to after the calls. -/
structure Sound (limiter : FixedWindowRateLimiter) (calls : List Call) : Prop where
  /-- The entries stand in the order of their windows. -/
  order : (run limiter [] calls).Pairwise fun a b => a.windowStartedAt ≤ b.windowStartedAt
  size : (run limiter [] calls).length ≤ limiter.maxKeys
  /-- A key without a window is refused only when `maxKeys` others have one. -/
  refused : ∀ (key : String) (now : ℚ) (d : RateLimitDecision),
    Nondecreasing (calls ++ [.hit key now]) →
    (limiter.hit key now (run limiter [] calls)).1 = .ok d
        ∨ (limiter.isLimited key now (run limiter [] calls)).1 = .ok d →
    (∀ entry ∈ get (run limiter [] calls) key, limiter.running now entry = false) →
    d.allowed = false →
    ∃ others : List String, others.Nodup ∧ others.length = limiter.maxKeys ∧ key ∉ others
      ∧ ∀ other ∈ others, ∃ entry, get (run limiter [] calls) other = some entry
        ∧ limiter.running now entry = true
  /-- A hit that is allowed leaves its key an entry, in a window around it. -/
  counted : ∀ (key : String) (now : ℚ) (d : RateLimitDecision),
    Nondecreasing (calls ++ [.hit key now]) →
    (limiter.hit key now (run limiter [] calls)).1 = .ok d → d.allowed = true →
    ∃ entry, get (run limiter [] (calls ++ [.hit key now])) key = some entry
      ∧ entry.windowStartedAt ≤ now ∧ now < entry.windowStartedAt + limiter.windowMs
  /-- Until a key is cleared, a window holds at most `limit` of its allowed hits. -/
  quota : ∀ (key : String) (later : List Call), Nondecreasing (calls ++ later) →
    NotCleared key later → ∀ start : ℚ,
      ((served limiter key (run limiter [] calls) later).filter fun hit =>
        hit.windowStartedAt = start).length ≤ limiter.limit
  /-- Each hit lies in its window, and windows do not overlap. -/
  windows : ∀ (key : String) (later : List Call), Nondecreasing (calls ++ later) →
    NotCleared key later → InWindows Served.time Served.windowStartedAt (limiter.windowMs : ℚ)
        (served limiter key (run limiter [] calls) later)
  /-- An interval as long as a window holds at most twice the limit. -/
  interval : ∀ (key : String) (later : List Call), Nondecreasing (calls ++ later) →
    NotCleared key later → ∀ start : ℚ,
      ((served limiter key (run limiter [] calls) later).filter fun hit =>
        start ≤ hit.time ∧ hit.time ≤ start + limiter.windowMs).length ≤ 2 * limiter.limit
  /-- Calls under other keys leave a window that is open as it is. -/
  others : ∀ (key : String) (later : List Call) (entry : Entry), Nondecreasing (calls ++ later) →
    get (run limiter [] calls) key = some entry →
    (∀ call ∈ later, call.keyInput ≠ key ∧ ∀ now ∈ call.reading, limiter.running now entry = true) →
    get (run limiter [] (calls ++ later)) key = some entry

theorem run_append (limiter : FixedWindowRateLimiter) (entries : List Entry) (calls later : List Call) :
    run limiter entries (calls ++ later) = run limiter (run limiter entries calls) later :=
  List.foldl_append

theorem exists_ordered (limiter : FixedWindowRateLimiter) (later : List Call)
    (h : Nondecreasing (calls ++ later)) :
    ∃ clock, Ordered limiter clock (run limiter [] calls) ∧ Readings clock later := by
  obtain ⟨first, hfirst⟩ := h.exists_clock
  obtain ⟨clock, hordered, hlater⟩ := hfirst.append limiter
  exact ⟨clock, hordered [] ordered_nil, hlater⟩

theorem exists_others (h : Ordered limiter clock entries)
    (hended : ∀ entry ∈ get entries key, limiter.running now entry = false)
    (hfull : limiter.maxKeys ≤ (live limiter now entries).length) :
    ∃ others : List String, others.Nodup ∧ others.length = limiter.maxKeys ∧ key ∉ others
    ∧ ∀ other ∈ others, ∃ entry, get entries other = some entry
      ∧ limiter.running now entry = true := by
  have hsize : (live limiter now entries).length = limiter.maxKeys :=
    le_antisymm ((List.length_filter_le _ _).trans h.size) hfull
  refine ⟨(live limiter now entries).map Entry.key, (h.filter _).keys, ?_, ?_, ?_⟩
  · rw [List.length_map, hsize]
  · intro hin
    obtain ⟨entry, hentry, hkey⟩ := List.mem_map.1 hin
    obtain ⟨hmem, hrunning⟩ := List.mem_filter.1 hentry
    rw [hended entry (h.mem_of_get.2 ⟨hmem, hkey⟩)] at hrunning
    cases hrunning
  · intro other hother
    obtain ⟨entry, hentry, rfl⟩ := List.mem_map.1 hother
    obtain ⟨hmem, hrunning⟩ := List.mem_filter.1 hentry
    exact ⟨entry, h.mem_of_get.2 ⟨hmem, rfl⟩, hrunning⟩

theorem full_of_refused (h : Ordered limiter clock entries) {d : RateLimitDecision}
    (hended : ∀ entry ∈ get entries key, limiter.running now entry = false)
    (hcall : (limiter.hit key now entries).1 = .ok d ∨ (limiter.isLimited key now entries).1 = .ok d)
    (hd : d.allowed = false) : limiter.maxKeys ≤ (live limiter now entries).length := by
  by_contra hroom
  cases hkey : boundedKey key with
  | error e =>
    rw [FixedWindowRateLimiter.hit, FixedWindowRateLimiter.isLimited, hkey] at hcall
    rcases hcall with hcall | hcall
    · cases hcall
    · cases hcall
  | ok bounded =>
    obtain rfl := boundedKey_eq hkey
    rw [hit_ended h hkey hended, isLimited_ended h hkey hended, if_neg hroom, if_neg hroom] at hcall
    rcases hcall with hcall | hcall
    · rw [← Except.ok.inj hcall] at hd
      exact absurd limiter.limit_pos (of_decide_eq_false hd)
    · rw [← Except.ok.inj hcall] at hd
      cases hd

theorem get_live_of_running (h : Ordered limiter clock entries) {entry : Entry}
    (hget : get entries key = some entry) (hrunning : limiter.running now entry = true) :
    get (live limiter now entries) key = some entry := by
  rw [live, h.get_filter, hget]
  exact Option.filter_some_pos hrunning

theorem get_step_other (h : Ordered limiter clock entries) {entry : Entry}
    (hget : get entries key = some entry) (hother : call.keyInput ≠ key)
    (hrunning : ∀ now ∈ call.reading, limiter.running now entry = true) :
    get (step limiter entries call) key = some entry := by
  cases call with
  | hit keyInput now =>
    rcases get_hit_other h hother now with hkept | hlive
    · exact hkept.trans hget
    · exact hlive.trans (get_live_of_running h hget (hrunning now rfl))
  | isLimited keyInput now =>
    rcases get_isLimited h keyInput key now with hkept | hlive
    · exact hkept.trans hget
    · exact hlive.trans (get_live_of_running h hget (hrunning now rfl))
  | clear keyInput => exact (get_clear h hother).trans hget

theorem get_run_others (h : Ordered limiter clock entries) (hreadings : Readings clock calls)
    {entry : Entry} (hget : get entries key = some entry)
    (hothers : ∀ call ∈ calls, call.keyInput ≠ key
      ∧ ∀ now ∈ call.reading, limiter.running now entry = true) :
    get (run limiter entries calls) key = some entry := by
  induction calls generalizing clock entries with
  | nil => exact hget
  | cons call calls ih =>
    obtain ⟨hother, hrunning⟩ := hothers call (List.mem_cons_self ..)
    exact ih (ordered_step h hreadings.head) hreadings.tail (get_step_other h hget hother hrunning)
      fun c hc => hothers c (List.mem_cons_of_mem _ hc)

/-- Under a clock that never falls the limiter is sound after any calls. -/
theorem limiter_sound (limiter : FixedWindowRateLimiter) (calls : List Call)
    (h : Nondecreasing calls) : Sound limiter calls where
  order := by
    obtain ⟨clock, hordered, -⟩ := exists_ordered limiter [] (by rwa [List.append_nil])
    exact hordered.starts
  size := by
    obtain ⟨clock, hordered, -⟩ := exists_ordered limiter [] (by rwa [List.append_nil])
    exact hordered.size
  refused key now d hnow hcall hended hd := by
    obtain ⟨clock, hordered, -⟩ := exists_ordered limiter _ hnow
    exact exists_others hordered hended (full_of_refused hordered hended hcall hd)
  counted key now d hnow hcall hallowed := by
    obtain ⟨clock, hordered, hreadings⟩ := exists_ordered limiter _ hnow
    have hmoves := moves_hit hordered key key now
    rw [servedBy, if_pos ⟨rfl, by rw [hcall]; exact hallowed⟩] at hmoves
    obtain ⟨-, hserved⟩ := hmoves.served (past_get hordered hreadings.head)
    obtain ⟨-, hstart, hend, entry, hentry, hsame⟩ := hserved _ (List.mem_singleton_self _)
    rw [← hsame] at hstart hend
    rw [run_append]
    exact ⟨entry, hentry, hstart, hend⟩
  quota key later hlater hclear start := by
    obtain ⟨clock, hordered, hreadings⟩ := exists_ordered limiter later hlater
    exact (served_le_room hordered hreadings hclear start).trans (room_le_limit start clock _)
  windows key later hlater hclear := by
    obtain ⟨clock, hordered, hreadings⟩ := exists_ordered limiter later hlater
    exact inWindows_served hordered hreadings hclear
  interval key later hlater hclear start := by
    obtain ⟨clock, hordered, hreadings⟩ := exists_ordered limiter later hlater
    refine length_between_le (inWindows_served hordered hreadings hclear) ?_ start
    intro s
    exact (served_le_room hordered hreadings hclear s).trans (room_le_limit s clock _)
  others key later entry hlater hget hothers := by
    obtain ⟨clock, hordered, hreadings⟩ := exists_ordered limiter later hlater
    rw [run_append]
    exact get_run_others hordered hreadings hget hothers

/-- One key at a time, twice in a second. -/
def singleKey : FixedWindowRateLimiter where
  limit := 2
  windowMs := 1000
  maxKeys := 1
  limit_pos := by decide
  windowMs_ge := le_refl _
  maxKeys_pos := le_refl _

/-- One key at a time: a hit, a clear, and two other keys. -/
theorem limiter_sound_sample : Sound singleKey [.hit "a" 0, .clear "a", .isLimited "b" 5, .hit "c" 7] := by
  refine limiter_sound singleKey _ ?_
  show List.Pairwise (· ≤ ·) [(0 : ℚ), 5, 7]
  norm_num

end OperatorRuntime.RateLimit
