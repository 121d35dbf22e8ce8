/-
Purpose: Results that are made of groups of items: every item is in one group, every group keeps the
  order of the items and makes one result.
Trusted boundary: none
Main exports: Grouped, Grouped.filter, Grouped.change, Grouped.nodup
-/
import Mathlib.Data.List.Nodup

namespace UsdConnect

variable {α β γ : Type} {Of Other : List α → β → Prop} {items : List α} {results : List β}

/-- The results, each made of a group of the items. -/
def Grouped (Of : List α → β → Prop) (items : List α) (results : List β) : Prop :=
  ∃ parts : List (List α × β), (parts.map Prod.snd).Perm results ∧
    (parts.flatMap Prod.fst).Perm items ∧ ∀ part ∈ parts, part.1.Sublist items ∧ Of part.1 part.2

namespace Grouped

theorem nil : Grouped Of [] [] :=
  ⟨[], .nil, .nil, fun _ member => absurd member List.not_mem_nil⟩

theorem perm (grouped : Grouped Of items results) {others : List β} (same : results.Perm others) :
    Grouped Of items others := by
  obtain ⟨parts, made, taken, each⟩ := grouped
  exact ⟨parts, made.trans same, taken, each⟩

/-- Every result has a group. -/
theorem made (grouped : Grouped Of items results) {result : β} (member : result ∈ results) :
    ∃ sources, Of sources result := by
  obtain ⟨parts, made, _, each⟩ := grouped
  obtain ⟨part, inside, rfl⟩ := List.mem_map.1 (made.mem_iff.2 member)
  exact ⟨part.1, (each part inside).2⟩

theorem mono (grouped : Grouped Of items results)
    (imp : ∀ sources, sources.Sublist items → ∀ result ∈ results, Of sources result →
      Other sources result) : Grouped Other items results := by
  obtain ⟨parts, made, taken, each⟩ := grouped
  refine ⟨parts, made, taken, fun part inside => ?_⟩
  obtain ⟨sub, of⟩ := each part inside
  exact ⟨sub, imp part.1 sub part.2 (made.mem_iff.1 (List.mem_map_of_mem inside)) of⟩

theorem map (grouped : Grouped Of items results) (change : β → γ) {Made : List α → γ → Prop}
    (imp : ∀ sources result, Of sources result → Made sources (change result)) :
    Grouped Made items (results.map change) := by
  obtain ⟨parts, made, taken, each⟩ := grouped
  refine ⟨parts.map fun part => (part.1, change part.2), ?_, ?_, ?_⟩
  · have whole := made.map change
    rwa [List.map_map] at whole ⊢
  · rwa [List.flatMap_map]
  · intro part inside
    obtain ⟨source, member, rfl⟩ := List.mem_map.1 inside
    exact ⟨(each source member).1, imp _ _ (each source member).2⟩

/-- Whole groups are kept or dropped. -/
theorem filter (grouped : Grouped Of items results) (keepItem : α → Bool) (keep : β → Bool)
    (whole : ∀ sources result, Of sources result → ∀ source ∈ sources,
      keepItem source = keep result) :
    Grouped Of (items.filter keepItem) (results.filter keep) := by
  obtain ⟨parts, made, taken, each⟩ := grouped
  have own : ∀ part ∈ parts, part.1.filter keepItem = if keep part.2 then part.1 else [] := by
    intro part inside
    have same := whole part.1 part.2 (each part inside).2
    split
    · next kept => exact List.filter_eq_self.2 fun source member => (same source member).trans kept
    · next dropped =>
        refine List.filter_eq_nil_iff.2 fun source member => ?_
        rwa [same source member]
  refine ⟨parts.filter fun part => keep part.2, ?_, ?_, ?_⟩
  · have filtered := made.filter keep
    rwa [List.filter_map] at filtered
  · have filtered := taken.filter keepItem
    rw [List.filter_flatMap] at filtered
    refine List.Perm.trans (List.Perm.of_eq ?_) filtered
    rw [List.flatMap_congr own]
    clear made taken each whole own filtered
    induction parts with
    | nil => rfl
    | cons part rest ih =>
        rw [List.filter_cons, List.flatMap_cons, ← ih]
        split <;> rfl
  · intro part inside
    obtain ⟨member, kept⟩ := List.mem_filter.1 inside
    have sub := (each part member).1.filter keepItem
    rw [own part member, if_pos kept] at sub
    exact ⟨sub, (each part member).2⟩

/-- A further item is a group of its own. -/
theorem opened (grouped : Grouped Of items results) {item : α} {result : β} (of : Of [item] result) :
    Grouped Of (items ++ [item]) (result :: results) := by
  obtain ⟨parts, made, taken, each⟩ := grouped
  refine ⟨([item], result) :: parts, made.cons result, ?_, ?_⟩
  · exact (taken.cons item).trans (List.perm_append_singleton item items).symm
  · intro part inside
    rcases List.mem_cons.1 inside with rfl | member
    · exact ⟨List.sublist_append_right items [item], of⟩
    · exact ⟨(each part member).1.trans (List.sublist_append_left items [item]), (each part member).2⟩

/-- Items are added to the group of one result, which changes. -/
theorem change {old : β} (grouped : Grouped Of items (old :: results)) (new : β) (extra : List α)
    (step : ∀ sources, Of sources old → Of (sources ++ extra) new) :
    Grouped Of (items ++ extra) (new :: results) := by
  obtain ⟨parts, made, taken, each⟩ := grouped
  obtain ⟨part, inside, rfl⟩ := List.mem_map.1 (made.mem_iff.2 List.mem_cons_self)
  obtain ⟨before, after, rfl⟩ := List.append_of_mem inside
  refine ⟨(part.1 ++ extra, new) :: (before ++ after), ?_, ?_, ?_⟩
  · have front : ((before ++ part :: after).map Prod.snd).Perm
        (part.2 :: (before ++ after).map Prod.snd) := List.perm_middle.map Prod.snd
    exact ((List.perm_cons part.2).1 (front.symm.trans made)).cons new
  · have front : ((before ++ part :: after).flatMap Prod.fst).Perm
        (part.1 ++ (before ++ after).flatMap Prod.fst) := List.perm_middle.flatMap_right Prod.fst
    have joined := (front.symm.trans taken).append_right extra
    refine List.Perm.trans ?_ joined
    rw [List.flatMap_cons, List.append_assoc, List.append_assoc]
    exact List.perm_append_comm.append_left part.1
  · intro other member
    rcases List.mem_cons.1 member with rfl | elsewhere
    · exact ⟨(each part inside).1.append_right extra, step part.1 (each part inside).2⟩
    · have there : other ∈ before ++ part :: after := by
        simp only [List.mem_append, List.mem_cons] at elsewhere ⊢
        tauto
      exact ⟨(each other there).1.trans (List.sublist_append_left items extra), (each other there).2⟩

/-- Results named after an item of their group have distinct names where the items have. -/
theorem nodup (grouped : Grouped Of items results) {nameItem : α → γ} {name : β → γ}
    (named : ∀ sources result, Of sources result → ∃ source ∈ sources, nameItem source = name result)
    (distinct : (items.map nameItem).Nodup) : (results.map name).Nodup := by
  obtain ⟨parts, made, taken, each⟩ := grouped
  have apart := (taken.map nameItem).nodup_iff.2 distinct
  rw [List.map_flatMap, List.nodup_flatMap] at apart
  rw [← (made.map name).nodup_iff, List.map_map]
  refine List.pairwise_map.2 (apart.2.imp_of_mem fun {one two} first second disjoint same => ?_)
  obtain ⟨source, inside, here⟩ := named _ _ (each one first).2
  obtain ⟨other, member, there⟩ := named _ _ (each two second).2
  refine disjoint (List.mem_map.2 ⟨source, inside, here⟩) (List.mem_map.2 ⟨other, member, ?_⟩)
  exact there.trans same.symm

end Grouped

end UsdConnect
