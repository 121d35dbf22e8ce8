/-
Purpose: The difference between an attribute's sample table and the fingerprints of what was sent of
  it.
Trusted boundary: conversion of values and their fingerprints
Main exports: SampleTable, SampleCache, diffTimeSamples
-/
import Mathlib.Data.List.Sort
import UsdConnect.Lib.OrderedDict
import UsdConnect.Usd.Layer

namespace UsdConnect

/-- The samples of one attribute. -/
abbrev SampleTable (Value : Type) :=
  OrderedDict TimeCode Value

/-- Fingerprints of the samples that were sent.  A null fingerprint retains the key of a value that
has no transport form. -/
abbrev SampleCache (Fingerprint : Type) :=
  OrderedDict TimeCode (Option Fingerprint)

/-- `sorted` on times. -/
def sortedTimes (times : List TimeCode) : List TimeCode :=
  times.insertionSort (· ≤ ·)

@[simp] theorem mem_sortedTimes {times : List TimeCode} {time : TimeCode} :
    time ∈ sortedTimes times ↔ time ∈ times :=
  (List.perm_insertionSort _ times).mem_iff

/-- The new cache, the changed samples and the deleted times. -/
structure SampleDiff (Transport Fingerprint : Type) where
  cache : SampleCache Fingerprint
  dirty : List (TimeCode × Transport)
  removed : List TimeCode

section Diff

variable {Value Transport Fingerprint : Type} [DecidableEq Fingerprint]

/-- `_diff_time_samples`. -/
def diffTimeSamples (convert : Value → Option Transport) (fingerprint : Transport → Fingerprint)
    (table : SampleTable Value) (cached : SampleCache Fingerprint) :
    SampleDiff Transport Fingerprint where
  cache := .ofEntries <| (sortedTimes table.keys).filterMap fun time =>
    (table.get? time).map fun value => (time, (convert value).map fingerprint)
  dirty := (sortedTimes table.keys).filterMap fun time =>
    ((table.get? time).bind convert).bind fun value =>
      if (cached.get? time).join = some (fingerprint value) then none else some (time, value)
  removed := sortedTimes (cached.keys.filter (· ∉ table.keys))

variable {convert : Value → Option Transport} {fingerprint : Transport → Fingerprint}
  {table : SampleTable Value} {cached : SampleCache Fingerprint}

theorem get?_diff_cache (time : TimeCode) :
    (diffTimeSamples convert fingerprint table cached).cache.get? time =
      (table.get? time).map fun value => (convert value).map fingerprint := by
  have distinct : (sortedTimes table.keys).Nodup :=
    (List.perm_insertionSort _ table.keys).nodup_iff.2 table.distinct
  have shape : (diffTimeSamples convert fingerprint table cached).cache =
      .ofEntries ((sortedTimes table.keys).filterMap fun time =>
        ((table.get? time).map fun value => (convert value).map fingerprint).map
          fun found => (time, found)) := by
    simp only [diffTimeSamples, Option.map_map]
    rfl
  rw [shape, OrderedDict.get?_ofEntries_filterMap _ _ distinct]
  split
  · rfl
  · next absent =>
      rw [mem_sortedTimes] at absent
      rw [OrderedDict.get?_eq_none absent]
      rfl

theorem mem_diff_dirty {time : TimeCode} {value : Transport} :
    (time, value) ∈ (diffTimeSamples convert fingerprint table cached).dirty ↔
      (table.get? time).bind convert = some value ∧
        (cached.get? time).join ≠ some (fingerprint value) := by
  simp only [diffTimeSamples, List.mem_filterMap, mem_sortedTimes, Option.bind_eq_some_iff,
    Option.ite_none_left_eq_some]
  constructor
  · rintro ⟨other, -, found, ⟨raw, held, converted⟩, changed, same⟩
    cases same
    exact ⟨⟨raw, held, converted⟩, changed⟩
  · rintro ⟨⟨raw, held, converted⟩, changed⟩
    exact ⟨time, OrderedDict.mem_keys_of_get? held, value, ⟨raw, held, converted⟩, changed, rfl⟩

theorem mem_diff_removed {time : TimeCode} :
    time ∈ (diffTimeSamples convert fingerprint table cached).removed ↔
      time ∈ cached.keys ∧ time ∉ table.keys := by
  simp [diffTimeSamples]

end Diff

end UsdConnect
