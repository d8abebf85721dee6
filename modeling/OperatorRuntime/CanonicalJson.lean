/-
`canonicalJson` is a canonical form: values have one text exactly when
they are equal up to the order of keys, and the text of a value is the
text of what it reads back as.
-/
import OperatorRuntime.JsonParse

namespace OperatorRuntime.Json

variable {v : Json}

-- ===== idempotence

theorem ownOrder_ownOrder (fields : List (String × Json)) :
    ownOrder (ownOrder fields) = ownOrder fields := by
  refine ownOrder_append ?_ ?_ ?_
  · intro f hf
    exact (List.mem_filter.1 ((List.mem_insertionSort _).1 hf)).2
  · have htotal : Std.Total fun a b : String × Json =>
        (arrayIndex? a.1).getD 0 ≤ (arrayIndex? b.1).getD 0 := ⟨fun _ _ => Nat.le_total _ _⟩
    have htrans : IsTrans (String × Json) fun a b =>
        (arrayIndex? a.1).getD 0 ≤ (arrayIndex? b.1).getD 0 := ⟨fun _ _ _ => Nat.le_trans⟩
    exact List.pairwise_insertionSort _ _
  · intro f hf
    simpa using (List.mem_filter.1 hf).2

theorem WellFormed.canonicalize_canonicalize (h : v.WellFormed) :
    v.canonicalize.canonicalize = v.canonicalize := by
  induction h with
  | null => rfl
  | bool b => rfl
  | num htext => rfl
  | str s => rfl
  | @arr items _ ih =>
    rw [Json.canonicalize, canonicalizeItems_eq, Json.canonicalize, canonicalizeItems_eq,
      List.map_map]
    exact congrArg Json.arr (List.map_congr_left ih)
  | @obj fields hkeys _ ih =>
    -- the fields of a canonical object are canonical, so only their
    -- order could change, and sorting forgets the order before
    have hsame : (canonicalFields fields).map canonicalField = canonicalFields fields := by
      refine (List.map_congr_left ?_).trans (List.map_id _)
      intro field hfield
      obtain ⟨field, hmem, rfl⟩ := mem_canonicalFields hfield
      exact Prod.ext rfl (ih field hmem)
    rw [canonicalize_obj, canonicalize_obj, canonicalFields, hsame,
      insertionSort_keyLe_eq (canonicalFields_perm fields) (nodup_canonicalFields hkeys),
      ← canonicalFields]

-- ===== round trip

variable {render : List Char → String}

theorem Parsed.canonicalize (h : Parsed render v) : Parsed render v.canonicalize := by
  induction h with
  | null => exact .null
  | bool b => exact .bool b
  | num htext htoken hrender => exact .num htext htoken hrender
  | str s => exact .str s
  | @arr items _ ih =>
    rw [Json.canonicalize, canonicalizeItems_eq]
    refine .arr ?_
    intro item hitem
    obtain ⟨item, hmem, rfl⟩ := List.mem_map.1 hitem
    exact ih item hmem
  | @obj fields hkeys _ _ ih =>
    rw [canonicalize_obj]
    refine .obj (nodup_canonicalFields hkeys) (ownOrder_ownOrder _) ?_
    intro field hfield
    obtain ⟨field, hmem, rfl⟩ := mem_canonicalFields hfield
    exact ih field hmem

variable {a b : Json}

/-- One text for the values that differ in the order of keys only, and that
text is read back as a value of the same text. -/
theorem canonicalJson_canonical (ha : Parsed render a) (hb : Parsed render b) :
    (canonicalJson a = canonicalJson b ↔ Same a b)
    ∧ (parse render (canonicalJson a).toList).map canonicalJson = some (canonicalJson a) := by
  constructor
  · rw [canonicalJson_inj ha.wellFormed hb.wellFormed]
    constructor
    · exact same_of_canonicalize_eq a hb.wellFormed
    · intro h
      exact h.canonicalize_eq ha.wellFormed hb.wellFormed
  · rw [canonicalJson, parse_stringify ha.canonicalize, Option.map_some, canonicalJson,
      ha.wellFormed.canonicalize_canonicalize]

/-- One object, filled in two orders. -/
theorem canonicalJson_canonical_swapped : canonicalJson (.obj [("b", .null), ("a", .bool true)])
    = canonicalJson (.obj [("a", .bool true), ("b", .null)])
    ∧ (parse String.ofList (canonicalJson (.obj [("b", .null), ("a", .bool true)])).toList).map
        canonicalJson = some (canonicalJson (.obj [("b", .null), ("a", .bool true)])) := by
  have hfirst : Parsed String.ofList (.obj [("b", .null), ("a", .bool true)]) :=
    .obj (by decide) rfl
      (List.forall_mem_cons.2 ⟨.null, List.forall_mem_singleton.2 (.bool true)⟩)
  have hsecond : Parsed String.ofList (.obj [("a", .bool true), ("b", .null)]) :=
    .obj (by decide) rfl
      (List.forall_mem_cons.2 ⟨.bool true, List.forall_mem_singleton.2 .null⟩)
  obtain ⟨hcanonical, hread⟩ := canonicalJson_canonical hfirst hsecond
  refine ⟨hcanonical.2 (.obj (by decide) ?_), hread⟩
  simp +contextual [Same.null, Same.bool]

end OperatorRuntime.Json
