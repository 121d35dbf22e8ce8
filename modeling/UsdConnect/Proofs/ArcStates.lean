/-
Purpose: The canonical list-op state of a valid reference or payload event is the same from every side
  exactly when no text key of an entry holds `None`.
Trusted boundary: none
Main exports: Normal, hasCanonicalState_iff_nullFree
-/
import UsdConnect.Events.ArcStates
import UsdConnect.Lib.Rows
import UsdConnect.Proofs.GprimAttrs

namespace UsdConnect.SdfArcState

/-! ### Keys that are only written with a value -/

theorem writeText_str (value : String) : (writeText value).str = value := by
  unfold writeText
  split
  · next empty => exact empty.symm
  · rfl

/-- Apart from `None`, what the encoder writes is what the canonical state reads. -/
theorem TextEntry.truthy_getD {entry : TextEntry} (present : entry ≠ .null) :
    entry.truthy.getD "" = entry.str := by
  cases entry with
  | absent => rfl
  | null => exact absurd rfl present
  | text value =>
      unfold TextEntry.truthy TextEntry.str
      dsimp only
      split
      · next empty => exact empty.symm
      · rfl

/-- A number that is read back after it was written. -/
theorem floatOr_writeNumber (py : Runtime) (default : Rat) (number : FloatValue) :
    floatOr py default (writeNumber default number) = .ok number := by
  unfold writeNumber
  split
  · next same =>
      rw [same]
      rfl
  · rfl

theorem slashes_slashes (path : String) : slashes (slashes path) = slashes path := by
  unfold slashes
  rw [String.toList_ofList, List.map_map]
  congr 1
  apply List.map_congr_left
  intro letter _
  dsimp only [Function.comp]
  by_cases backslash : letter = Char.ofNat 92
  · simp [backslash]
  · simp [backslash]

/-! ### Canonical entries -/

section Entry

variable {sdf : Sdf} {py : Runtime} {explicit references : Bool} {entry other result : ArcEntry}

/-- The position fits the mode of the list op. -/
def Fits (explicit : Bool) (position : String) : Prop :=
  position ∈ arcListPositions ∧ (explicit = true ↔ position = "explicit")

theorem canonicalEntry_ok_iff :
    canonicalEntry sdf py explicit references entry = .ok result ↔
      Fits explicit (entry.position explicit) ∧ ∃ offset scale fragment,
        floatOr py 0 entry.layerOffset = .ok offset ∧ floatOr py 1 entry.layerScale = .ok scale ∧
        canonicalCustomData sdf references entry.customDataFragment.str = .ok fragment ∧
        result = {
          assetPath := writeText (slashes entry.assetPath.str)
          primPath := writeText entry.primPath.str
          listPosition := if !explicit && entry.position explicit ≠ "prepended" then
            some (entry.position explicit) else none
          layerOffset := writeNumber 0 offset
          layerScale := writeNumber 1 scale
          customDataFragment := fragment } := by
  unfold canonicalEntry Fits
  dsimp only
  constructor
  · intro ok
    split at ok
    · cases ok
    next known =>
    split at ok
    · cases ok
    next inside =>
    split at ok
    · cases ok
    next outside =>
    obtain ⟨offset, first, ok⟩ := except_bind_eq_ok_iff.1 ok
    obtain ⟨scale, second, ok⟩ := except_bind_eq_ok_iff.1 ok
    obtain ⟨fragment, third, ok⟩ := except_bind_eq_ok_iff.1 ok
    refine ⟨⟨not_not.1 known, ?_⟩, offset, scale, fragment, first, second, third,
      (Except.ok.inj ok).symm⟩
    constructor
    · intro mode
      by_contra away
      exact inside ⟨mode, away⟩
    · intro here
      by_contra mode
      exact outside ⟨mode, here⟩
  · rintro ⟨⟨known, mode⟩, offset, scale, fragment, first, second, third, rfl⟩
    rw [if_neg (not_not_intro known), if_neg (fun both => both.2 (mode.1 both.1)),
      if_neg (fun both => both.1 (mode.2 both.2)), first, second, third]
    rfl

theorem canonicalEntry_congr (assetPath : other.assetPath.str = entry.assetPath.str)
    (primPath : other.primPath.str = entry.primPath.str)
    (position : other.position explicit = entry.position explicit)
    (layerOffset : floatOr py 0 other.layerOffset = floatOr py 0 entry.layerOffset)
    (layerScale : floatOr py 1 other.layerScale = floatOr py 1 entry.layerScale)
    (fragment : other.customDataFragment.str = entry.customDataFragment.str) :
    canonicalEntry sdf py explicit references other =
      canonicalEntry sdf py explicit references entry := by
  unfold canonicalEntry
  rw [assetPath, primPath, position, layerOffset, layerScale, fragment]

/-- A canonical entry, with its prim path a valid one. -/
structure Normal (sdf : Sdf) (explicit references : Bool) (entry : ArcEntry) : Prop where
  assetPath : ∃ path, entry.assetPath = writeText (slashes path)
  primPath : ∃ path, entry.primPath = writeText path
  position : Fits explicit (entry.position explicit)
  listPosition : entry.listPosition = if !explicit && entry.position explicit ≠ "prepended" then
    some (entry.position explicit) else none
  layerOffset : ∃ number, entry.layerOffset = writeNumber 0 number
  layerScale : ∃ number, entry.layerScale = writeNumber 1 number
  customData : entry.customDataFragment = .absent ∨ references = true ∧ ∃ data,
    sdf.isEmpty data = false ∧ sdf.importFromString (sdf.exportToString data) = some data ∧
      entry.customDataFragment = .text (sdf.exportToString data)

/-- A position that is only written when it is not the default. -/
theorem writePosition_getD {position : String} (fits : Fits explicit position) :
    (if !explicit && position ≠ "prepended" then some position else none).getD
      (if explicit then "explicit" else "prepended") = position := by
  cases explicit with
  | true => exact (fits.2.1 rfl).symm
  | false =>
      by_cases prepended : position = "prepended"
      · rw [prepended]
        rfl
      · simp [prepended]

theorem canonicalCustomData_ok {fragment : String} {kept : TextEntry} (documented : sdf.Documented)
    (ok : canonicalCustomData sdf references fragment = .ok kept) :
    kept = .absent ∨ references = true ∧ ∃ data, sdf.isEmpty data = false ∧
      sdf.importFromString (sdf.exportToString data) = some data ∧
        kept = .text (sdf.exportToString data) := by
  unfold canonicalCustomData deserializeReferenceCustomData at ok
  split at ok
  · cases ok
    exact Or.inl rfl
  next there =>
  split at ok
  · cases ok
  next allowed =>
  cases found : sdf.importFromString fragment with
  | none =>
      rw [found] at ok
      cases ok
  | some data =>
      rw [found] at ok
      cases ok
      unfold serializeReferenceCustomData
      cases empty : sdf.isEmpty data with
      | true => exact Or.inl rfl
      | false =>
          right
          refine ⟨by simpa using allowed, data, empty, documented.exported _ _ found empty, ?_⟩
          unfold writeText
          exact if_neg (documented.exportText data)

theorem normal_of_canonicalEntry (documented : sdf.Documented)
    (ok : canonicalEntry sdf py explicit references entry = .ok result) :
    Normal sdf explicit references result ∧
      result.position explicit = entry.position explicit := by
  obtain ⟨fits, offset, scale, fragment, _, _, third, rfl⟩ := canonicalEntry_ok_iff.1 ok
  have position := writePosition_getD fits
  refine ⟨⟨⟨_, rfl⟩, ⟨_, rfl⟩, ?_, ?_, ⟨_, rfl⟩, ⟨_, rfl⟩, canonicalCustomData_ok documented third⟩,
    position⟩
  · exact (congrArg (Fits explicit) position).mpr fits
  · show _ = if !explicit && ArcEntry.position _ explicit ≠ "prepended" then
      some (ArcEntry.position _ explicit) else none
    unfold ArcEntry.position
    dsimp only
    unfold ArcEntry.position at position
    rw [position]

theorem Normal.canonicalEntry (documented : sdf.Documented)
    (normal : Normal sdf explicit references entry) :
    canonicalEntry sdf py explicit references entry = .ok entry := by
  obtain ⟨path, assetPath⟩ := normal.assetPath
  obtain ⟨primText, primPath⟩ := normal.primPath
  obtain ⟨offset, layerOffset⟩ := normal.layerOffset
  obtain ⟨scale, layerScale⟩ := normal.layerScale
  have fragment : canonicalCustomData sdf references entry.customDataFragment.str =
      .ok entry.customDataFragment := by
    rcases normal.customData with none | ⟨allowed, data, there, imported, written⟩
    · rw [none]
      rfl
    · rw [written]
      have text := documented.exportText data
      unfold canonicalCustomData deserializeReferenceCustomData TextEntry.str
      dsimp only
      rw [if_neg text, if_neg (by simp [allowed]), if_neg text, imported]
      show Except.ok (writeText (serializeReferenceCustomData sdf data)) = _
      unfold serializeReferenceCustomData writeText
      rw [there, if_neg Bool.false_ne_true, if_neg text]
  apply canonicalEntry_ok_iff.2
  refine ⟨normal.position, offset, scale, entry.customDataFragment, ?_, ?_, fragment, ?_⟩
  · rw [layerOffset]
    exact floatOr_writeNumber py 0 offset
  · rw [layerScale]
    exact floatOr_writeNumber py 1 scale
  · have asset : writeText (slashes entry.assetPath.str) = entry.assetPath := by
      rw [assetPath, writeText_str, slashes_slashes]
    have prim : writeText entry.primPath.str = entry.primPath := by
      rw [primPath, writeText_str]
    rw [asset, prim, ← normal.listPosition, ← layerOffset, ← layerScale]

theorem Normal.readEntry (documented : sdf.Documented)
    (normal : Normal sdf explicit references entry)
    (valid : ∀ path, entry.primPath = .text path → sdf.requirePrimPath path = .ok ()) :
    ∃ item, sdfArcItem sdf py references entry = .ok item ∧
      SdfArcState.readEntry sdf explicit references (entry.position explicit) item = entry := by
  obtain ⟨path, assetPath⟩ := normal.assetPath
  obtain ⟨primText, primPath⟩ := normal.primPath
  obtain ⟨offset, layerOffset⟩ := normal.layerOffset
  obtain ⟨scale, layerScale⟩ := normal.layerScale
  have data : ∃ data, itemCustomData sdf references entry.customDataFragment.str = .ok data ∧
      entry.customDataFragment = if references && !sdf.isEmpty data then
        .text (serializeReferenceCustomData sdf data) else .absent := by
    rcases normal.customData with none | ⟨allowed, data, there, imported, written⟩
    · refine ⟨sdf.empty, ?_, ?_⟩
      · rw [none]
        cases references with
        | true => rfl
        | false => rfl
      · rw [documented.emptyData, none]
        simp
    · refine ⟨data, ?_, ?_⟩
      · rw [written]
        unfold itemCustomData deserializeReferenceCustomData TextEntry.str
        dsimp only
        rw [if_pos allowed, if_neg (documented.exportText data), imported]
      · rw [written, allowed, there]
        unfold serializeReferenceCustomData
        rw [there]
        rfl
  obtain ⟨data, read, kept⟩ := data
  unfold sdfArcItem
  rw [layerOffset, layerScale, floatOr_writeNumber, floatOr_writeNumber, read]
  refine ⟨_, rfl, ?_⟩
  have prim : (if sdf.isEmptyPath (if entry.primPath.str = "" then sdf.emptyPath
        else sdf.path entry.primPath.str) then TextEntry.absent
      else .text (sdf.pathText (if entry.primPath.str = "" then sdf.emptyPath
        else sdf.path entry.primPath.str))) = entry.primPath := by
    by_cases none : primText = ""
    · have absent : entry.primPath = .absent := by
        rw [primPath, none]
        rfl
      have empty : TextEntry.absent.str = "" := rfl
      rw [absent, if_pos empty, documented.noPath]
      rfl
    · have there : entry.primPath = .text primText := by
        rw [primPath]
        exact if_neg none
      obtain ⟨full, text⟩ := documented.primPaths primText (valid primText there)
      have str : entry.primPath.str = primText := by
        rw [there]
        rfl
      rw [str, if_neg none, full, text, there]
      rfl
  have asset : writeText (slashes entry.assetPath.str) = entry.assetPath := by
    rw [assetPath, writeText_str, slashes_slashes]
  unfold SdfArcState.readEntry
  dsimp only
  rw [asset, prim, ← normal.listPosition, ← layerOffset, ← layerScale, ← kept]

end Entry

/-! ### Valid entries -/

section Valid

variable {sdf : Sdf} {py : Runtime} {explicit references : Bool} {entry : ArcEntry}

/-- What the validator has made sure of. -/
structure ValidEntry (sdf : Sdf) (py : Runtime) (explicit references : Bool) (entry : ArcEntry) :
    Prop where
  primPath : ∀ path, entry.primPath = .text path → sdf.requirePrimPath path = .ok ()
  fits : Fits explicit (entry.position explicit)
  layerOffset : ∃ number, floatOr py 0 entry.layerOffset = .ok number
  layerScale : ∃ number, floatOr py 1 entry.layerScale = .ok number
  fragment : ∀ fragment, entry.customDataFragment = .text fragment →
    references = true ∧ ∃ data, sdf.importFromString fragment = some data ∧ fragment ≠ ""

theorem floatOr_of_finite {field : String} {value : Option PyValue} {default : Rat}
    (finite : requireFinite py field value = .ok ()) :
    ∃ number, floatOr py default value = .ok number := by
  cases value with
  | none => exact ⟨_, rfl⟩
  | some value =>
      obtain ⟨isFinite, checked, _⟩ := except_bind_eq_ok_iff.1 finite
      show ∃ number, floatOr py 0 (some value) = .ok number
      unfold isFiniteNumber at checked
      split at checked
      · exact ⟨_, rfl⟩
      all_goals first
        | (obtain ⟨number, read, _⟩ := except_bind_eq_ok_iff.1 checked
           exact ⟨number, read⟩)
        | skip
      all_goals
        cases finite

theorem validEntry_of_ok (valid : validateArcEntry sdf py explicit references entry = .ok ()) :
    ValidEntry sdf py explicit references entry := by
  unfold validateArcEntry at valid
  split at valid
  · cases valid
  split at valid
  · cases valid
  obtain ⟨_, prim, valid⟩ := except_bind_eq_ok_iff.1 valid
  split at valid
  · cases valid
  next position =>
  obtain ⟨_, offset, valid⟩ := except_bind_eq_ok_iff.1 valid
  obtain ⟨_, scale, fragment⟩ := except_bind_eq_ok_iff.1 valid
  obtain ⟨known, mode⟩ := not_or.1 position
  refine ⟨?_, ⟨not_not.1 known, ?_⟩, floatOr_of_finite offset, floatOr_of_finite scale, ?_⟩
  · intro path there
    rw [there] at prim
    unfold requireArcPrimPath at prim
    cases required : sdf.requirePrimPath path with
    | ok done => rfl
    | error message =>
        dsimp only at prim
        rw [required] at prim
        cases prim
  · have same := not_not.1 mode
    constructor
    · intro inMode
      exact of_decide_eq_true (same.symm.trans inMode)
    · intro there
      exact same.trans (decide_eq_true there)
  · intro text there
    rw [there] at fragment
    unfold requireFragment at fragment
    dsimp only at fragment
    split at fragment
    · cases fragment
    next allowed =>
    obtain ⟨hasReferences, full⟩ := not_or.1 allowed
    obtain ⟨data, imported, _⟩ := except_bind_eq_ok_iff.1 fragment
    unfold deserializeReferenceCustomData at imported
    rw [if_neg full] at imported
    cases found : sdf.importFromString text with
    | none =>
        rw [found] at imported
        cases imported
    | some other => exact ⟨by simpa using hasReferences, other, rfl, full⟩

theorem ValidEntry.exists_canonicalEntry (valid : ValidEntry sdf py explicit references entry)
    (present : entry.customDataFragment ≠ .null) :
    ∃ result, canonicalEntry sdf py explicit references entry = .ok result := by
  obtain ⟨offset, first⟩ := valid.layerOffset
  obtain ⟨scale, second⟩ := valid.layerScale
  have third : ∃ fragment,
      canonicalCustomData sdf references entry.customDataFragment.str = .ok fragment := by
    cases there : entry.customDataFragment with
    | absent => exact ⟨_, rfl⟩
    | null => exact absurd there present
    | text text =>
        obtain ⟨allowed, data, imported, full⟩ := valid.fragment text there
        unfold canonicalCustomData deserializeReferenceCustomData TextEntry.str
        dsimp only
        rw [if_neg full, if_neg (by simp [allowed]), if_neg full, imported]
        exact ⟨_, rfl⟩
  obtain ⟨fragment, third⟩ := third
  exact ⟨_, canonicalEntry_ok_iff.2 ⟨valid.fits, offset, scale, fragment, first, second, third, rfl⟩⟩

theorem validEntries_of_ok {event : ArcEvent}
    (valid : validateArcEvent sdf py references event = .ok ()) :
    (event.authored = false → event.arcs = [] ∧ event.explicit = false) ∧
      ∀ entry ∈ event.arcs, ValidEntry sdf py event.explicit references entry := by
  unfold validateArcEvent at valid
  split at valid
  · cases valid
  next allowed =>
  obtain ⟨checked, all, _⟩ := except_bind_eq_ok_iff.1 valid
  constructor
  · intro unauthored
    have none : ¬ (event.arcs ≠ [] ∨ event.explicit = true) := fun some =>
      allowed ⟨by simp [unauthored], some⟩
    obtain ⟨empty, mode⟩ := not_or.1 none
    exact ⟨not_not.1 empty, Bool.eq_false_iff.2 mode⟩
  · intro entry member
    obtain ⟨result, ok⟩ := exists_of_mapM_eq_ok all member
    exact validEntry_of_ok ok

end Valid

/-! ### Canonical states -/

section State

variable {sdf : Sdf} {py : Runtime} {explicit references : Bool} {entries others : List ArcEntry}
  {authored otherAuthored : Option Bool} {state : ArcStateDict}

theorem canonicalArcState_ok_iff :
    canonicalArcState sdf py entries authored explicit references = .ok state ↔
      (authored.getD (!entries.isEmpty || explicit) = false → entries = [] ∧ explicit = false) ∧
        ∃ normalized, entries.mapM (canonicalEntry sdf py explicit references) = .ok normalized ∧
          state = {
            entries := if explicit then normalized else sortEntries normalized
            listOpAuthored := authored.getD (!entries.isEmpty || explicit)
            listOpExplicit := explicit } := by
  unfold canonicalArcState
  dsimp only
  constructor
  · intro ok
    split at ok
    · cases ok
    next allowed =>
    obtain ⟨normalized, read, ok⟩ := except_bind_eq_ok_iff.1 ok
    refine ⟨?_, normalized, read, (Except.ok.inj ok).symm⟩
    intro unauthored
    have none : ¬ (entries ≠ [] ∨ explicit = true) := fun some =>
      allowed ⟨by simp [unauthored], some⟩
    obtain ⟨empty, mode⟩ := not_or.1 none
    exact ⟨not_not.1 empty, Bool.eq_false_iff.2 mode⟩
  · rintro ⟨allowed, normalized, read, rfl⟩
    rw [if_neg, read]
    · rfl
    · rintro ⟨unauthored, some⟩
      obtain ⟨empty, mode⟩ := allowed (by simpa using unauthored)
      rcases some with full | explicitly
      · exact full empty
      · rw [mode] at explicitly
        cases explicitly

theorem canonicalArcState_congr (empty : others = [] ↔ entries = [])
    (flag : otherAuthored.getD (!others.isEmpty || explicit) =
      authored.getD (!entries.isEmpty || explicit))
    (same : others.mapM (canonicalEntry sdf py explicit references) =
      entries.mapM (canonicalEntry sdf py explicit references)) :
    canonicalArcState sdf py others otherAuthored explicit references =
      canonicalArcState sdf py entries authored explicit references := by
  unfold canonicalArcState
  dsimp only
  rw [flag, same]
  simp only [ne_eq, empty]

theorem normal_of_canonicalArcState (documented : sdf.Documented)
    (ok : canonicalArcState sdf py entries authored explicit references = .ok state) :
    state.listOpExplicit = explicit ∧
      (∀ entry ∈ state.entries, Normal sdf explicit references entry ∧
        ∃ before ∈ entries, canonicalEntry sdf py explicit references before = .ok entry) ∧
      (explicit = false → sortEntries state.entries = state.entries) := by
  obtain ⟨_, normalized, read, rfl⟩ := canonicalArcState_ok_iff.1 ok
  have normal : ∀ entry ∈ normalized, Normal sdf explicit references entry ∧
      ∃ before ∈ entries, canonicalEntry sdf py explicit references before = .ok entry := by
    intro entry member
    obtain ⟨before, there, ok⟩ := exists_item_of_mapM read member
    exact ⟨(normal_of_canonicalEntry documented ok).1, before, there, ok⟩
  refine ⟨rfl, ?_, ?_⟩
  · intro entry member
    cases explicit with
    | true => exact normal entry member
    | false =>
        obtain ⟨position, _, there⟩ := List.mem_flatMap.1 member
        exact normal entry (List.mem_filter.1 there).1
  · rintro rfl
    exact bucketed_bucketed (by decide) normalized

theorem idempotent_of_ok (documented : sdf.Documented)
    (ok : canonicalArcState sdf py entries authored explicit references = .ok state) :
    canonicalArcState sdf py state.entries (some state.listOpAuthored) state.listOpExplicit
      references = .ok state := by
  obtain ⟨mode, normal, sorted⟩ := normal_of_canonicalArcState documented ok
  obtain ⟨allowed, normalized, read, same⟩ := canonicalArcState_ok_iff.1 ok
  rw [mode, canonicalArcState_ok_iff]
  have again : state.entries.mapM (canonicalEntry sdf py explicit references) =
      .ok state.entries := by
    have each : ∀ entry ∈ state.entries,
        canonicalEntry sdf py explicit references entry = .ok (id entry) :=
      fun entry member => (normal entry member).1.canonicalEntry documented
    have all := mapM_eq_ok_map each
    rwa [List.map_id] at all
  refine ⟨?_, state.entries, again, ?_⟩
  · intro unauthored
    rw [Option.getD_some, same] at unauthored
    obtain ⟨empty, notExplicit⟩ := allowed unauthored
    subst empty
    cases read
    rw [same, notExplicit]
    exact ⟨rfl, rfl⟩
  · cases explicit with
    | true =>
        rw [same]
        rfl
    | false =>
        rw [sorted rfl, Option.getD_some]
        rw [same]
        rfl

end State

/-! ### Other spellings of an event -/

section Event

variable {sdf : Sdf} {py : Runtime} {references : Bool} {event other : ArcEvent}
  {state : ArcStateDict}

/-- Entries at different positions may change places. -/
theorem canonical_of_reorders (documented : sdf.Documented) (reorders : event.Reorders other)
    (ok : event.canonical sdf py references = .ok state) :
    other.canonical sdf py references = .ok state := by
  obtain ⟨sameAuthored, sameExplicit, buckets⟩ := reorders
  have mode : other.explicit = event.explicit := by
    unfold ArcEvent.explicit
    rw [sameExplicit]
  have members : ∀ entry, entry ∈ other.arcs ↔ entry ∈ event.arcs := by
    intro entry
    have bucket := buckets (entry.position event.explicit)
    have inside : ∀ entries : List ArcEntry, entry ∈ entries ↔ entry ∈ entries.filter
        fun candidate => candidate.position event.explicit = entry.position event.explicit := by
      intro entries
      simp
    rw [inside other.arcs, bucket, ← inside event.arcs]
  have empty : other.arcs = [] ↔ event.arcs = [] := by
    rw [List.eq_nil_iff_forall_not_mem, List.eq_nil_iff_forall_not_mem]
    exact forall_congr' fun entry => not_congr (members entry)
  have flag : other.listOpAuthored.getD (!other.arcs.isEmpty || event.explicit) =
      event.listOpAuthored.getD (!event.arcs.isEmpty || event.explicit) := by
    have same : other.arcs.isEmpty = event.arcs.isEmpty := by
      rw [Bool.eq_iff_iff, List.isEmpty_iff, List.isEmpty_iff]
      exact empty
    rw [sameAuthored, same]
  unfold ArcEvent.canonical at ok ⊢
  rw [mode]
  obtain ⟨allowed, normalized, read, same⟩ := canonicalArcState_ok_iff.1 ok
  -- the canonical entry of each entry
  have each : ∀ entry, ∃ result, entry ∈ event.arcs →
      canonicalEntry sdf py event.explicit references entry = .ok result := by
    intro entry
    by_cases member : entry ∈ event.arcs
    · obtain ⟨result, found⟩ := exists_of_mapM_eq_ok read member
      exact ⟨result, fun _ => found⟩
    · exact ⟨entry, fun absurdly => absurd absurdly member⟩
  obtain ⟨normalize, found⟩ := Classical.axiomOfChoice each
  have all := mapM_eq_ok_map found
  have others := mapM_eq_ok_map fun entry member => found entry ((members entry).1 member)
  rw [read] at all
  cases all
  rw [canonicalArcState_ok_iff, flag]
  refine ⟨fun unauthored => ⟨empty.2 (allowed unauthored).1, (allowed unauthored).2⟩,
    _, others, ?_⟩
  rw [same]
  cases explicitly : event.explicit with
  | true =>
      -- one bucket holds all entries
      rw [explicitly] at buckets found
      have full : ∀ entries : List ArcEntry, (∀ entry ∈ entries, entry ∈ event.arcs) →
          entries.filter (fun entry => entry.position true = "explicit") = entries := by
        intro entries inside
        apply List.filter_eq_self.2
        intro entry member
        have fits := (canonicalEntry_ok_iff.1 (found entry (inside entry member))).1
        exact decide_eq_true (fits.2.1 rfl)
      have bucket := buckets "explicit"
      rw [full other.arcs fun entry member => (members entry).1 member,
        full event.arcs fun _ member => member] at bucket
      rw [bucket]
  | false =>
      rw [explicitly] at buckets found
      have sorted : sortEntries (other.arcs.map normalize) =
          sortEntries (event.arcs.map normalize) := by
        have moved : ∀ entries : List ArcEntry, (∀ entry ∈ entries, entry ∈ event.arcs) →
            sortEntries (entries.map normalize) = (sortEntries entries).map normalize := by
          intro entries inside
          symm
          apply map_bucketed
          intro entry member
          exact (normal_of_canonicalEntry documented (found entry (inside entry member))).2
        rw [moved other.arcs fun entry member => (members entry).1 member,
          moved event.arcs fun _ member => member]
        congr 1
        exact bucketed_congr fun position _ => buckets position
      simp only [Bool.false_eq_true, if_false]
      rw [sorted]

/-- Defaults may be written out. -/
theorem canonical_of_spellsOut (spells : event.SpellsOut other)
    (ok : event.canonical sdf py references = .ok state) :
    other.canonical sdf py references = .ok state := by
  have mode : other.explicit = event.explicit := by
    unfold ArcEvent.explicit
    rcases spells.listOpExplicit with same | ⟨absent, written⟩
    · rw [same]
    · rw [absent, written]
      rfl
  have length := spells.arcs.length_eq
  have empty : other.arcs = [] ↔ event.arcs = [] := by
    rw [← List.length_eq_zero_iff, ← List.length_eq_zero_iff, length]
  have same : other.arcs.isEmpty = event.arcs.isEmpty := by
    rw [Bool.eq_iff_iff, List.isEmpty_iff, List.isEmpty_iff]
    exact empty
  unfold ArcEvent.canonical at ok ⊢
  rw [mode, ← ok]
  apply canonicalArcState_congr empty
  · rw [same]
    rcases spells.listOpAuthored with kept | ⟨absent, written⟩
    · rw [kept]
    · rw [absent, written]
      unfold ArcEvent.authored
      rw [absent]
      rfl
  · apply mapM_congr_forall₂
    apply spells.arcs.imp
    intro entry spelled out
    apply canonicalEntry_congr
    · rcases out.assetPath with kept | ⟨absent, written⟩
      · rw [kept]
      · rw [absent, written]
        rfl
    · rcases out.primPath with kept | ⟨absent, written⟩
      · rw [kept]
      · rw [absent, written]
        rfl
    · unfold ArcEntry.position
      rcases out.listPosition with kept | ⟨absent, written⟩
      · rw [kept]
      · rw [absent, written]
        rfl
    · rcases out.layerOffset with kept | ⟨absent, written⟩
      · rw [kept]
      · rw [absent, written]
        rfl
    · rcases out.layerScale with kept | ⟨absent, written⟩
      · rw [kept]
      · rw [absent, written]
        rfl
    · rcases out.customDataFragment with kept | ⟨absent, written⟩
      · rw [kept]
      · rw [absent, written]
        rfl

/-! ### The wire -/

theorem arcPositionToFb_ok {position : String} (known : position ∈ arcListPositions) :
    ∃ type, arcPositionToFb position = .ok type ∧ type.text = position := by
  unfold arcListPositions at known
  simp only [List.mem_cons, List.not_mem_nil, or_false] at known
  rcases known with rfl | rfl | rfl | rfl | rfl | rfl
  · exact ⟨.explicit, rfl, rfl⟩
  · exact ⟨.added, rfl, rfl⟩
  · exact ⟨.prepended, rfl, rfl⟩
  · exact ⟨.appended, rfl, rfl⟩
  · exact ⟨.deleted, rfl, rfl⟩
  · exact ⟨.ordered, rfl, rfl⟩

theorem ValidEntry.encodeArcEntry {explicit : Bool} {entry : ArcEntry}
    (valid : ValidEntry sdf py explicit references entry) :
    ∃ table offset scale, SdfArcState.encodeArcEntry py explicit entry = .ok table ∧
      floatOr py 0 entry.layerOffset = .ok offset ∧ floatOr py 1 entry.layerScale = .ok scale ∧
      table.assetPath = entry.assetPath.truthy ∧ table.primPath = entry.primPath.truthy ∧
      table.listPosition.text = entry.position explicit ∧ table.layerOffset = offset ∧
      table.layerScale = scale ∧ table.customDataFragment = entry.customDataFragment.truthy := by
  obtain ⟨offset, first⟩ := valid.layerOffset
  obtain ⟨scale, second⟩ := valid.layerScale
  obtain ⟨type, position, text⟩ := arcPositionToFb_ok valid.fits.1
  unfold SdfArcState.encodeArcEntry
  rw [position, first, second]
  exact ⟨_, offset, scale, rfl, rfl, rfl, rfl, rfl, text, rfl, rfl, rfl⟩

theorem decodeArcEntry_position (explicit : Bool) (table : ArcEntryTable) :
    (decodeArcEntry explicit table).position explicit = table.listPosition.text := by
  have written : ∀ text default : String,
      (if text ≠ default then some text else none).getD default = text := by
    intro text default
    by_cases same : text = default
    · rw [if_neg (not_not_intro same)]
      exact same.symm
    · rw [if_pos same]
      rfl
  exact written _ _

/-- A transported entry is read as it was, `None` apart. -/
theorem ValidEntry.canonicalEntry_decode {explicit : Bool} {entry : ArcEntry}
    {table : ArcEntryTable} (valid : ValidEntry sdf py explicit references entry)
    (encoded : SdfArcState.encodeArcEntry py explicit entry = .ok table)
    (assetPath : entry.assetPath ≠ .null) (primPath : entry.primPath ≠ .null)
    (fragment : entry.customDataFragment ≠ .null) :
    canonicalEntry sdf py explicit references (decodeArcEntry explicit table) =
      canonicalEntry sdf py explicit references entry := by
  obtain ⟨other, offset, scale, written, first, second, asset, prim, position, wireOffset,
    wireScale, custom⟩ := valid.encodeArcEntry
  rw [encoded] at written
  cases written
  apply canonicalEntry_congr
  · unfold decodeArcEntry
    rw [writeText_str, asset, TextEntry.truthy_getD assetPath]
  · unfold decodeArcEntry
    rw [writeText_str, prim, TextEntry.truthy_getD primPath]
  · rw [decodeArcEntry_position, position]
  · unfold decodeArcEntry
    rw [floatOr_writeNumber, wireOffset, first]
  · unfold decodeArcEntry
    rw [floatOr_writeNumber, wireScale, second]
  · unfold decodeArcEntry
    rw [writeText_str, custom, TextEntry.truthy_getD fragment]

/-- The tables of valid entries. -/
theorem exists_encodeArcEvent
    (valid : ∀ entry ∈ event.arcs, ValidEntry sdf py event.explicit references entry) :
    ∃ tables, encodeArcEvent py event = .ok ⟨tables, event.authored, event.explicit⟩ ∧
      List.Forall₂ (fun entry table =>
        SdfArcState.encodeArcEntry py event.explicit entry = .ok table) event.arcs tables := by
  have each : ∀ entry, ∃ table, entry ∈ event.arcs →
      SdfArcState.encodeArcEntry py event.explicit entry = .ok table := by
    intro entry
    by_cases member : entry ∈ event.arcs
    · obtain ⟨table, _, _, encoded, _⟩ := (valid entry member).encodeArcEntry
      exact ⟨table, fun _ => encoded⟩
    · exact ⟨⟨none, none, .explicit, .nan, .nan, none⟩, fun absurdly => absurd absurdly member⟩
  obtain ⟨table, found⟩ := Classical.axiomOfChoice each
  have all := mapM_eq_ok_map found
  refine ⟨_, ?_, mapM_eq_ok_iff.1 all⟩
  unfold encodeArcEvent
  rw [all]
  rfl

/-- What is decoded has the flags spelled out and one entry for each. -/
theorem canonical_decodeArcEvent {tables : List ArcEntryTable}
    (length : tables.length = event.arcs.length)
    (same : (tables.map (decodeArcEntry event.explicit)).mapM
        (canonicalEntry sdf py event.explicit references) =
      event.arcs.mapM (canonicalEntry sdf py event.explicit references)) :
    (decodeArcEvent ⟨tables, event.authored, event.explicit⟩).canonical sdf py references =
      event.canonical sdf py references := by
  apply canonicalArcState_congr
  · show tables.map (decodeArcEntry event.explicit) = [] ↔ event.arcs = []
    rw [← List.length_eq_zero_iff, ← List.length_eq_zero_iff, List.length_map, length]
  · rfl
  · exact same

end Event

/-! ### Reading back -/

section ReadBack

variable {sdf : Sdf} {py : Runtime} {references : Bool}

/-- Setting the buckets of a list op that is not explicit. -/
theorem items_foldl_set {Item : Type} {items : String → List Item} {positions : List String}
    {listOp : ListOp Item} (listed : "explicit" ∉ positions) (mode : listOp.isExplicit = false)
    (position : String) :
    (positions.foldl (fun listOp position => listOp.set position (items position)) listOp).isExplicit
        = false ∧
      (positions.foldl (fun listOp position => listOp.set position (items position))
        listOp).items position =
        if position ∈ positions then items position else listOp.items position := by
  induction positions generalizing listOp with
  | nil => exact ⟨mode, (if_neg List.not_mem_nil).symm⟩
  | cons first rest ih =>
      have away : first ≠ "explicit" := fun same => listed (same ▸ List.mem_cons_self)
      have still : (listOp.set first (items first)).isExplicit = false := decide_eq_false away
      obtain ⟨kept, same⟩ := ih (fun member => listed (List.mem_cons_of_mem first member)) still
      refine ⟨kept, ?_⟩
      rw [List.foldl_cons, same]
      by_cases later : position ∈ rest
      · rw [if_pos later, if_pos (List.mem_cons_of_mem first later)]
      · rw [if_neg later]
        by_cases here : position = first
        · rw [here, if_pos List.mem_cons_self]
          exact if_pos rfl
        · rw [if_neg (fun member => (List.mem_cons.1 member).elim here later)]
          show (if position = first then items first else _) = _
          rw [if_neg here, if_pos (mode.trans (decide_eq_false away).symm)]

theorem map_readEntry_itemsAt {entries : List ArcEntry} {items : List (SdfArcItem sdf)}
    (read : List.Forall₂ (fun entry item =>
      readEntry sdf false references (entry.position false) item = entry) entries items)
    (position : String) :
    (itemsAt sdf entries items position).map (readEntry sdf false references position) =
      entries.filter fun entry => entry.position false = position := by
  unfold itemsAt
  induction read with
  | nil => rfl
  | @cons entry item entries items here _ ih =>
      rw [List.zip_cons_cons, List.filter_cons, List.filter_cons]
      dsimp only
      by_cases there : entry.position false = position
      · rw [if_pos (decide_eq_true there), if_pos (decide_eq_true there), List.map_cons,
          List.map_cons, ih]
        dsimp only
        rw [← there, here]
      · rw [if_neg (by rwa [decide_eq_true_iff]), if_neg (by rwa [decide_eq_true_iff]), ih]

theorem ArcSpec.field_setField (spec : ArcSpec sdf) (value : Option (ListOp (SdfArcItem sdf))) :
    (spec.setField references value).field references = value := by
  cases references with
  | true => rfl
  | false => rfl

theorem map_readEntry_explicit {entries : List ArcEntry} {items : List (SdfArcItem sdf)}
    (read : List.Forall₂ (fun entry item =>
      readEntry sdf true references (entry.position true) item = entry) entries items)
    (positions : ∀ entry ∈ entries, entry.position true = "explicit") :
    items.map (readEntry sdf true references "explicit") = entries := by
  induction read with
  | nil => rfl
  | @cons entry item entries items here _ ih =>
      rw [positions entry List.mem_cons_self] at here
      rw [List.map_cons, here,
        ih fun other member => positions other (List.mem_cons_of_mem entry member)]

/-- What `apply_arc_state` authors is read as the entries its items were made of. -/
theorem readArcState_authored {entries : List ArcEntry} {items : List (SdfArcItem sdf)}
    {explicit : Bool}
    (read : List.Forall₂ (fun entry item =>
      readEntry sdf explicit references (entry.position explicit) item = entry) entries items)
    (positions : explicit = true → ∀ entry ∈ entries, entry.position true = "explicit")
    (sorted : explicit = false → sortEntries entries = entries) (spec : ArcSpec sdf) :
    readArcState sdf (some (spec.setField references (some
      (if explicit then ListOp.set {} "explicit" items
      else listOpPositions.foldl
        (fun listOp position => listOp.set position (itemsAt sdf entries items position)) {}))))
      references = { entries := entries, listOpAuthored := true, listOpExplicit := explicit } := by
  unfold readArcState
  rw [Option.bind_some, ArcSpec.field_setField]
  dsimp only
  cases explicit with
  | true =>
      have back := map_readEntry_explicit read (positions rfl)
      simpa [ListOp.set] using back
  | false =>
      have notExplicit : "explicit" ∉ listOpPositions := by decide
      have set : ∀ position, _ ∧ _ := fun position =>
        @items_foldl_set _ (itemsAt sdf entries items) listOpPositions {} notExplicit rfl position
      rw [if_neg Bool.false_ne_true, (set "explicit").1, if_neg Bool.false_ne_true]
      have back : (listOpPositions.flatMap fun position =>
          ((listOpPositions.foldl (fun listOp position => listOp.set position
            (itemsAt sdf entries items position)) ({} : ListOp (SdfArcItem sdf))).items position).map
            (readEntry sdf false references position)) = entries := by
        refine Eq.trans ?_ (sorted rfl)
        unfold sortEntries bucketed
        apply List.flatMap_congr
        intro position listed
        rw [(set position).2, if_pos listed]
        exact map_readEntry_itemsAt read position
      rw [back]

theorem exists_sdfArcItems {entries : List ArcEntry} {explicit : Bool}
    (each : ∀ entry ∈ entries, ∃ item, sdfArcItem sdf py references entry = .ok item ∧
      readEntry sdf explicit references (entry.position explicit) item = entry) :
    ∃ items, entries.mapM (sdfArcItem sdf py references) = .ok items ∧
      List.Forall₂ (fun entry item =>
        readEntry sdf explicit references (entry.position explicit) item = entry) entries items := by
  induction entries with
  | nil => exact ⟨[], rfl, .nil⟩
  | cons entry rest ih =>
      obtain ⟨item, made, readAgain⟩ := each entry List.mem_cons_self
      obtain ⟨items, all, later⟩ := ih fun other member =>
        each other (List.mem_cons_of_mem entry member)
      refine ⟨item :: items, ?_, .cons readAgain later⟩
      rw [List.mapM_cons, made, all]
      rfl

theorem readArcState_applyArcState {entries : List ArcEntry} {authored : Option Bool}
    {explicit : Bool} {state : ArcStateDict} (documented : sdf.Documented)
    (ok : canonicalArcState sdf py entries authored explicit references = .ok state)
    (valid : ∀ entry ∈ state.entries, ∀ path, entry.primPath = .text path →
      sdf.requirePrimPath path = .ok ())
    (spec : Option (ArcSpec sdf)) :
    ∃ after, applyArcState sdf py spec entries authored explicit references = .ok after ∧
      readArcState sdf after references = state := by
  obtain ⟨mode, normal, sorted⟩ := normal_of_canonicalArcState documented ok
  unfold applyArcState
  rw [ok]
  obtain ⟨listed, isAuthored, isExplicit⟩ := state
  dsimp only at mode normal sorted valid
  subst mode
  cases isAuthored with
  | false =>
      obtain ⟨allowed, normalized, read, same⟩ := canonicalArcState_ok_iff.1 ok
      obtain ⟨rfl, rfl⟩ := allowed (congrArg ArcStateDict.listOpAuthored same).symm
      cases read
      refine ⟨_, rfl, ?_⟩
      have cleared : (spec.map fun spec => spec.setField references none).bind
          (fun spec => spec.field references) = none := by
        cases spec with
        | none => rfl
        | some spec => exact spec.field_setField none
      have none : listed = [] := congrArg ArcStateDict.entries same
      unfold readArcState
      rw [cleared, none]
  | true =>
      obtain ⟨items, made, readAgain⟩ := exists_sdfArcItems fun entry member =>
        (normal entry member).1.readEntry documented (valid entry member)
      refine ⟨some ((spec.getD {}).setField references _), ?_, readArcState_authored readAgain ?_
        sorted (spec.getD {})⟩
      · show (listed.mapM (sdfArcItem sdf py references) >>= _) = _
        rw [made]
        rfl
      · rintro rfl entry member
        exact (normal entry member).1.position.2.1 rfl

end ReadBack

/-! ### `None` is not transported -/

section Null

/-- Two counts that agree, one condition implying the other. -/
theorem imp_of_countP_eq {Item : Type} {wide narrow : Item → Bool} {items : List Item}
    (implied : ∀ item ∈ items, narrow item = true → wide item = true)
    (same : items.countP wide = items.countP narrow) :
    ∀ item ∈ items, wide item = true → narrow item = true := by
  induction items with
  | nil => exact fun item member => by cases member
  | cons first rest ih =>
      have restImplied := fun item member => implied item (List.mem_cons_of_mem first member)
      have restBound := List.countP_mono_left restImplied
      rw [List.countP_cons, List.countP_cons] at same
      have here := implied first List.mem_cons_self
      intro item member holds
      rcases List.mem_cons.1 member with rfl | later
      · by_contra not
        rw [if_pos holds, if_neg not] at same
        omega
      · apply ih restImplied _ item later holds
        by_cases wideHere : wide first = true
        · by_cases narrowHere : narrow first = true
          · rw [if_pos wideHere, if_pos narrowHere] at same
            omega
          · rw [if_pos wideHere, if_neg narrowHere] at same
            omega
        · rw [if_neg wideHere, if_neg fun narrowHere => wideHere (here narrowHere)] at same
          omega

variable {sdf : Sdf} {py : Runtime} {references explicit : Bool} {event : ArcEvent}
  {state : ArcStateDict} {field : ArcEntry → TextEntry}

/-- How many entries of a canonical state have a text. -/
theorem countP_canonical {entries : List ArcEntry} {authored : Option Bool}
    (documented : sdf.Documented)
    (reads : ∀ entry result, canonicalEntry sdf py explicit references entry = .ok result →
      (field result ≠ .absent ↔ (field entry).str ≠ ""))
    (ok : canonicalArcState sdf py entries authored explicit references = .ok state) :
    state.entries.countP (fun entry => field entry ≠ .absent) =
      entries.countP fun entry => (field entry).str ≠ "" := by
  obtain ⟨allowed, normalized, read, rfl⟩ := canonicalArcState_ok_iff.1 ok
  have counted : normalized.countP (fun entry => field entry ≠ .absent) =
      entries.countP fun entry => (field entry).str ≠ "" := by
    have each := mapM_eq_ok_iff.1 read
    clear allowed read ok
    induction each with
    | nil => rfl
    | cons here _ ih =>
        rw [List.countP_cons, List.countP_cons, ih]
        simp only [reads _ _ here]
  rw [← counted]
  cases explicit with
  | true => rfl
  | false =>
      apply List.Perm.countP_eq
      apply bucketed_perm (by decide)
      intro entry member
      obtain ⟨before, _, made⟩ := exists_item_of_mapM read member
      have fits := (normal_of_canonicalEntry documented made).1.position
      have known := fits.1
      have away : entry.position false ≠ "explicit" := fun same => by
        cases fits.2.2 same
      unfold arcListPositions at known
      exact (List.mem_cons.1 known).resolve_left away

theorem slashes_eq_empty {path : String} : slashes path = "" ↔ path = "" := by
  unfold slashes
  rw [← String.toList_inj, String.toList_ofList, ← String.toList_inj]
  exact List.map_eq_nil_iff

theorem writeText_ne_absent {value : String} : writeText value ≠ .absent ↔ value ≠ "" := by
  unfold writeText
  split
  · next empty => simp [empty]
  · next full => simp [full]

theorem truthy_getD_ne {entry : TextEntry} : entry.truthy.getD "" ≠ "" → entry.str ≠ "" := by
  cases entry with
  | absent => exact id
  | null => exact fun full => absurd rfl full
  | text value =>
      unfold TextEntry.truthy TextEntry.str
      dsimp only
      split
      · next empty => exact fun full => absurd rfl full
      · exact id

theorem countP_decoded {entries : List ArcEntry} {tables : List ArcEntryTable}
    (wire : ∀ entry table, SdfArcState.encodeArcEntry py explicit entry = .ok table →
      (field (decodeArcEntry explicit table)).str = (field entry).truthy.getD "")
    (each : List.Forall₂ (fun entry table =>
      SdfArcState.encodeArcEntry py explicit entry = .ok table) entries tables) :
    (tables.map (decodeArcEntry explicit)).countP (fun entry => (field entry).str ≠ "") =
      entries.countP fun entry => (field entry).truthy.getD "" ≠ "" := by
  induction each with
  | nil => rfl
  | cons here _ ih =>
      rw [List.map_cons, List.countP_cons, List.countP_cons, ih]
      simp only [wire _ _ here]

/-- A text that is in as many entries before as after transport is `None` nowhere. -/
theorem ne_null_of_transported (documented : sdf.Documented)
    (valid : ∀ entry ∈ event.arcs, ValidEntry sdf py event.explicit references entry)
    (reads : ∀ entry result, canonicalEntry sdf py event.explicit references entry = .ok result →
      (field result ≠ .absent ↔ (field entry).str ≠ ""))
    (wire : ∀ entry table, SdfArcState.encodeArcEntry py event.explicit entry = .ok table →
      (field (decodeArcEntry event.explicit table)).str = (field entry).truthy.getD "")
    (has : HasCanonicalState sdf py references event state) :
    ∀ entry ∈ event.arcs, field entry ≠ .null := by
  obtain ⟨tables, encoded, each⟩ := exists_encodeArcEvent valid
  obtain ⟨table, sent, received⟩ := has.transported
  rw [encoded] at sent
  cases sent
  have before := countP_canonical documented reads has.canonical
  have after := countP_canonical documented reads received
  have transported := countP_decoded wire each
  have counts := (before.symm.trans after).trans transported
  intro entry member null
  have full := imp_of_countP_eq (fun entry _ full =>
    decide_eq_true (truthy_getD_ne (of_decide_eq_true full))) counts entry member
  rw [null] at full
  exact absurd (of_decide_eq_true (full (by decide))) (by decide)

end Null

/-! ### The claim about all sides -/

/-- A valid event has one canonical state from every side exactly when it holds no `None`. -/
theorem hasCanonicalState_iff_nullFree (sdf : Sdf) (documented : sdf.Documented) (py : Runtime)
    (references : Bool) (event : ArcEvent)
    (valid : validateArcEvent sdf py references event = .ok ()) :
    (∃ state, HasCanonicalState sdf py references event state) ↔ event.NullFree := by
  obtain ⟨unauthored, entries⟩ := validEntries_of_ok valid
  constructor
  · rintro ⟨state, has⟩ entry member
    refine ⟨?_, ?_, ?_⟩
    · refine @ne_null_of_transported sdf py references event state ArcEntry.assetPath documented
        entries ?_ ?_ has entry member
      · intro before result made
        obtain ⟨_, offset, scale, fragment, _, _, _, rfl⟩ := canonicalEntry_ok_iff.1 made
        exact writeText_ne_absent.trans (not_congr slashes_eq_empty)
      · intro before table sent
        obtain ⟨position, _, sent⟩ := except_bind_eq_ok_iff.1 sent
        obtain ⟨offset, _, sent⟩ := except_bind_eq_ok_iff.1 sent
        obtain ⟨scale, _, sent⟩ := except_bind_eq_ok_iff.1 sent
        cases sent
        exact writeText_str _
    · refine @ne_null_of_transported sdf py references event state ArcEntry.primPath documented
        entries ?_ ?_ has entry member
      · intro before result made
        obtain ⟨_, offset, scale, fragment, _, _, _, rfl⟩ := canonicalEntry_ok_iff.1 made
        exact writeText_ne_absent
      · intro before table sent
        obtain ⟨position, _, sent⟩ := except_bind_eq_ok_iff.1 sent
        obtain ⟨offset, _, sent⟩ := except_bind_eq_ok_iff.1 sent
        obtain ⟨scale, _, sent⟩ := except_bind_eq_ok_iff.1 sent
        cases sent
        exact writeText_str _
    · -- the text "None" is no layer
      intro null
      obtain ⟨_, normalized, read, _⟩ := canonicalArcState_ok_iff.1 has.canonical
      obtain ⟨result, made⟩ := exists_of_mapM_eq_ok read member
      obtain ⟨_, offset, scale, fragment, _, _, third, _⟩ := canonicalEntry_ok_iff.1 made
      rw [null] at third
      unfold canonicalCustomData deserializeReferenceCustomData TextEntry.str at third
      dsimp only at third
      rw [if_neg (by decide)] at third
      split at third
      · cases third
      · rw [if_neg (by decide), documented.header] at third
        cases third
  · intro nullFree
    have normalized : ∀ entry, ∃ result, entry ∈ event.arcs →
        canonicalEntry sdf py event.explicit references entry = .ok result := by
      intro entry
      by_cases member : entry ∈ event.arcs
      · obtain ⟨result, made⟩ :=
          (entries entry member).exists_canonicalEntry (nullFree entry member).2.2
        exact ⟨result, fun _ => made⟩
      · exact ⟨entry, fun absurdly => absurd absurdly member⟩
    obtain ⟨normalize, each⟩ := Classical.axiomOfChoice normalized
    have canonical : ∃ state, event.canonical sdf py references = .ok state :=
      ⟨_, canonicalArcState_ok_iff.2 ⟨unauthored, _, mapM_eq_ok_map each, rfl⟩⟩
    obtain ⟨state, ok⟩ := canonical
    refine ⟨state, ok, idempotent_of_ok documented ok,
      fun other reorders => canonical_of_reorders documented reorders ok,
      fun other spells => canonical_of_spellsOut spells ok, ?_, ?_⟩
    · apply readArcState_applyArcState documented ok
      intro entry member path there
      obtain ⟨_, normal, _⟩ := normal_of_canonicalArcState documented ok
      obtain ⟨_, before, known, made⟩ := normal entry member
      obtain ⟨_, offset, scale, fragment, _, _, _, rfl⟩ := canonicalEntry_ok_iff.1 made
      have text : before.primPath = .text path := by
        cases authored : before.primPath with
        | absent =>
            rw [authored] at there
            cases there
        | null => exact absurd authored (nullFree before known).2.1
        | text other =>
            rw [authored] at there
            unfold writeText TextEntry.str at there
            dsimp only at there
            split at there
            · cases there
            · exact there
      exact (entries before known).primPath path text
    · obtain ⟨tables, encoded, sent⟩ := exists_encodeArcEvent entries
      refine ⟨_, encoded, ?_⟩
      rw [canonical_decodeArcEvent sent.length_eq.symm, ok]
      apply mapM_congr_forall₂
      rw [List.forall₂_map_right_iff]
      apply (forall₂_mem_left sent).imp
      rintro entry table ⟨member, written⟩
      obtain ⟨assetPath, primPath, fragment⟩ := nullFree entry member
      exact (entries entry member).canonicalEntry_decode written assetPath primPath fragment

/-! ### An entry with `None` -/

def layerHeader : String := "#usda 1.0"

/-- Custom data is the text after the header, and paths are their texts. -/
def textSdf : Sdf where
  CustomData := List Char
  empty := []
  isEmpty := List.isEmpty
  importFromString := fun text =>
    if layerHeader.toList <+: text.toList then some (text.toList.drop layerHeader.toList.length)
    else none
  exportToString := fun data => layerHeader ++ String.ofList data
  Path := String
  emptyPath := ""
  path := id
  isEmptyPath := fun path => path = ""
  pathText := id
  requirePrimPath := fun text =>
    if text.toList.head? = some '/' ∧ text ≠ "/" then .ok ()
    else .error "arc prim_path must be an absolute prim path"

theorem documented_textSdf : textSdf.Documented where
  emptyData := rfl
  exported := by
    intro text (data : List Char) _ _
    show (if layerHeader.toList <+: (layerHeader ++ String.ofList data).toList then
      some ((layerHeader ++ String.ofList data).toList.drop layerHeader.toList.length)
      else none) = some data
    rw [String.toList_append, String.toList_ofList, if_pos (List.prefix_append _ _),
      List.drop_left]
  exportText := by
    intro data same
    have letters := congrArg String.toList same
    rw [show textSdf.exportToString data = layerHeader ++ String.ofList data from rfl,
      String.toList_append] at letters
    exact absurd (List.append_eq_nil_iff.1 letters).1 (by decide)
  header := rfl
  noPath := rfl
  primPaths := by
    intro text valid
    have there : text ≠ "" := by
      rintro rfl
      cases valid
    have full : decide (text = "") = false := decide_eq_false there
    exact ⟨full, rfl⟩

/-- An internal reference whose asset path is written out as `None`. -/
def noneAsset : ArcEvent where
  arcs := [{ assetPath := .null, primPath := .text "/Chair" }]

/-- The validator accepts it, and its canonical state names an asset `None` that is not transported. -/
theorem not_hasCanonicalState_noneAsset :
    validateArcEvent textSdf plainRuntime true noneAsset = .ok () ∧
      ¬ ∃ state, HasCanonicalState textSdf plainRuntime true noneAsset state := by
  have valid : validateArcEvent textSdf plainRuntime true noneAsset = .ok () := rfl
  refine ⟨valid, ?_⟩
  rintro ⟨state, has⟩
  obtain ⟨table, sent, received⟩ := has.transported
  cases sent
  have canonical := has.canonical
  cases canonical
  have assets := congrArg (fun outcome : Except ArcError ArcStateDict =>
    outcome.toOption.map fun state => state.entries.map ArcEntry.assetPath) received
  exact absurd assets (by decide)

/-- A prepended and an added reference. -/
def twoReferences : ArcEvent where
  arcs := [{ assetPath := .text "chair.usd", layerScale := some (.float (.finite 2)) },
    { assetPath := .text "table.usd", listPosition := some "added" }]

theorem hasCanonicalState_twoReferences :
    (∃ state, HasCanonicalState textSdf plainRuntime true twoReferences state) ↔
      twoReferences.NullFree :=
  hasCanonicalState_iff_nullFree textSdf documented_textSdf plainRuntime true twoReferences rfl

end UsdConnect.SdfArcState
