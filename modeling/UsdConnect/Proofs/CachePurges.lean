/-
Purpose: The index of the known prims stays their sorted list, and a purge of a subtree is exact if and
  only if every prim below that has entries is one that the index finds.
Trusted boundary: none
Main exports: IndexAgrees.eq_sort, specKeys_of_accepted, purgeReaches_iff, purgeCaches_spec
-/
import UsdConnect.Client.EmitterCaches

namespace UsdConnect

open SortedPrefix

/-! ### Dictionaries -/

section Dictionaries

variable {Key Value : Type} [DecidableEq Key]

theorem get?_popAll (keys : List Key) (dict : OrderedDict Key Value) (other : Key) :
    (popAll dict keys).get? other = if other ∈ keys then none else dict.get? other := by
  induction keys generalizing dict with
  | nil => rfl
  | cons key keys ih =>
      have rest : (popAll dict (key :: keys)).get? other =
          if other ∈ keys then none else (dict.pop key).get? other := ih (dict.pop key)
      rw [rest, OrderedDict.get?_pop, Function.update_apply]
      by_cases same : other = key
      · simp [same]
      · simp [same]

/-- Looking every key up gives a list when each lookup succeeds. -/
theorem mapM_eq_some_map {Item Found : Type} {read : Item → Option Found} {found : Item → Found}
    {items : List Item} (each : ∀ item ∈ items, read item = some (found item)) :
    items.mapM read = some (items.map found) := by
  induction items with
  | nil => rfl
  | cons item items ih =>
      rw [List.mapM_cons, each item List.mem_cons_self,
        ih fun other member => each other (List.mem_cons_of_mem item member)]
      rfl

end Dictionaries

namespace EmitterCaches

variable {Value : Type} {grammar : PathGrammar} {caches : EmitterCaches Value}
variable {prim old new : PathText}

/-! ### The index -/

theorem IndexAgrees.knowPrim (agrees : caches.IndexAgrees) (path : PathText) :
    (caches.knowPrim path).IndexAgrees := by
  unfold EmitterCaches.knowPrim
  split
  · exact agrees
  · next fresh =>
      obtain ⟨sorted, members⟩ := agrees
      refine ⟨pairwise_insort sorted fun old => fresh ((members path).1 old), ?_⟩
      intro other
      rw [mem_insort, Finset.mem_insert, members]

theorem IndexAgrees.forgetPrim (agrees : caches.IndexAgrees) (path : PathText) :
    (caches.forgetPrim path).IndexAgrees := by
  unfold EmitterCaches.forgetPrim
  split
  · next known =>
      obtain ⟨sorted, members⟩ := agrees
      refine ⟨sorted.eraseIdx _, ?_⟩
      intro other
      rw [mem_eraseIdx_bisectLeft sorted ((members path).2 known), Finset.mem_erase, members,
        and_comm]
  · exact agrees

/-- Behind a prim in the index, up to the bound that the bisection uses. -/
def InRange (prim path : PathText) : Prop :=
  ∃ rest, path = prim ++ '/' :: rest ∧ ∀ next ∈ rest.head?, next < Char.ofNat 0xFFFF

theorem inRange_iff {path : PathText} : InRange prim path ↔
    ¬ path < prim ++ ['/'] ∧ path < prim ++ ['/'] ++ [Char.ofNat 0xFFFF] := by
  rw [between_iff]
  unfold InRange
  simp only [List.append_assoc, List.singleton_append]

theorem InRange.below {path : PathText} (inRange : InRange prim path) :
    (prim ++ ['/']) <+: path := by
  obtain ⟨rest, rfl, -⟩ := inRange
  exact ⟨rest, by simp⟩

theorem ne_of_below {path : PathText} (below : (prim ++ ['/']) <+: path) : path ≠ prim := by
  rintro rfl
  exact absurd below.length_le (by simp)

theorem range_ordered (prim : PathText) :
    prim ++ ['/'] ≤ prim ++ ['/'] ++ [Char.ofNat 0xFFFF] :=
  not_lt.1 <| not_lt_of_prefix (List.prefix_append _ _)

theorem mem_rangePaths (agrees : caches.IndexAgrees) {path : PathText} :
    path ∈ caches.rangePaths prim ↔ path ∈ caches.knownPrims ∧ InRange prim path := by
  obtain ⟨sorted, members⟩ := agrees
  unfold rangePaths indexRange
  dsimp only
  rw [mem_slice sorted (range_ordered prim), members, inRange_iff]

theorem IndexAgrees.forgetRange (agrees : caches.IndexAgrees) (prim : PathText) :
    (caches.forgetRange prim).IndexAgrees := by
  refine ⟨pairwise_cut agrees.1, ?_⟩
  intro path
  unfold EmitterCaches.forgetRange indexRange
  dsimp only
  rw [mem_cut agrees.1 (range_ordered prim), agrees.2, Finset.mem_sdiff, List.mem_toFinset,
    mem_rangePaths agrees, inRange_iff]
  tauto

/-! ### Keys whose owner passes a test -/

variable {test : PathText → Bool}

/-- Where specs stand at paths of their kinds, no lookup of an owner raises. -/
theorem specKeys_of_accepted (test : PathText → Bool)
    {dict : OrderedDict (SpecKind × PathText) Value}
    (accepted : ∀ key ∈ dict.keys, grammar.accepts key.1 key.2 = true) :
    ∃ keys, specKeys grammar test dict = some keys ∧
      ∀ key, key ∈ keys ↔ key ∈ dict.keys ∧
        ∃ owner, grammar.eventPrimPath key.1 key.2 = some owner ∧ test owner = true := by
  let owner (key : SpecKind × PathText) : PathText :=
    if key.1 = .layer then ['/'] else scenePrimPath key.2
  have owned : ∀ key ∈ dict.keys, grammar.eventPrimPath key.1 key.2 = some (owner key) := by
    intro key member
    unfold PathGrammar.eventPrimPath
    rw [if_pos (accepted key member)]
  have each : ∀ key ∈ dict.keys,
      ((grammar.eventPrimPath key.1 key.2).map fun found => (key, found)) =
        some (key, owner key) := by
    intro key member
    rw [owned key member]
    rfl
  refine ⟨((dict.keys.map fun key => (key, owner key)).filter fun entry => test entry.2).map (·.1),
    ?_, ?_⟩
  · unfold specKeys
    rw [mapM_eq_some_map each]
    rfl
  · intro key
    simp only [List.mem_map, List.mem_filter]
    constructor
    · rintro ⟨-, ⟨⟨other, member, rfl⟩, passes⟩, rfl⟩
      exact ⟨member, owner other, owned other member, passes⟩
    · rintro ⟨member, found, here, passes⟩
      cases (owned key member).symm.trans here
      exact ⟨_, ⟨⟨key, member, rfl⟩, passes⟩, rfl⟩

theorem clearedSpecs_of_accepted {dict : OrderedDict (SpecKind × PathText) Value}
    {preserveSdf : Bool} (accepted : ∀ key ∈ dict.keys, grammar.accepts key.1 key.2 = true) :
    ∃ keys, clearedSpecs grammar test preserveSdf dict = some keys ∧
      ∀ kind text owner, grammar.eventPrimPath kind text = some owner →
        ((kind, text) ∈ keys ↔
          (kind, text) ∈ dict.keys ∧ preserveSdf = false ∧ test owner = true) := by
  cases preserveSdf with
  | true => exact ⟨[], rfl, by simp⟩
  | false =>
      obtain ⟨keys, same, listed⟩ := specKeys_of_accepted test accepted
      refine ⟨keys, same, ?_⟩
      intro kind text owner owned
      simp [listed, owned]

theorem mem_textKeys {cache : TextCache} {dict : OrderedDict PathText Value} {text : PathText} :
    text ∈ textKeys grammar test cache dict ↔
      text ∈ dict.keys ∧ test (grammar.textOwner cache text) = true :=
  List.mem_filter

/-! ### Purges -/

/-- What is left where entries were dropped if a condition holds. -/
theorem get?_popAll_of_iff {Key : Type} [DecidableEq Key] {dict : OrderedDict Key Value}
    {keys : List Key} {key : Key} {dropped : Prop} [Decidable dropped]
    (listed : key ∈ keys ↔ key ∈ dict.keys ∧ dropped) :
    (popAll dict keys).get? key = if dropped then none else dict.get? key := by
  rw [get?_popAll]
  by_cases present : key ∈ dict.keys
  · rw [if_congr (listed.trans (and_iff_right present)) rfl rfl]
  · rw [OrderedDict.get?_eq_none present, ite_self, ite_self]

theorem mem_keys_of_popAll {Key : Type} [DecidableEq Key] {dict : OrderedDict Key Value}
    {keys : List Key} {key : Key} (member : key ∈ (popAll dict keys).keys) : key ∈ dict.keys := by
  rw [OrderedDict.mem_keys_iff_isSome] at member ⊢
  rw [get?_popAll] at member
  split at member
  · cases member
  · exact member

/-- The caches by spec path and by property path after a purge, which leaves the other ones alone. -/
theorem purgeSdfPaths_spec (accepted : caches.Accepted grammar) (clears : PathText → Bool)
    (preserveSdf : Bool) :
    ∃ bySpec byText,
      caches.purgeSdfPaths grammar clears preserveSdf =
        some { caches with bySpec := bySpec, byText := byText } ∧
      (∀ cache, ∀ key ∈ (bySpec cache).keys, key ∈ (caches.bySpec cache).keys) ∧
      (∀ cache kind text owner, grammar.eventPrimPath kind text = some owner →
        (bySpec cache).get? (kind, text) =
          if preserveSdf = false ∧ clears owner = true then none
          else (caches.bySpec cache).get? (kind, text)) ∧
      ∀ cache text, (byText cache).get? text =
        if (cache = .dirtySdfSubtrees → preserveSdf = false) ∧
            clears (grammar.textOwner cache text) = true then none
        else (caches.byText cache).get? text := by
  obtain ⟨fields, fieldsFound, fieldsListed⟩ := clearedSpecs_of_accepted (accepted .sdfSpecFields)
  obtain ⟨dirty, dirtyFound, dirtyListed⟩ := clearedSpecs_of_accepted (accepted .dirtySdfSpecs)
  let subtrees := if preserveSdf then [] else
    textKeys grammar clears .dirtySdfSubtrees (caches.byText .dirtySdfSubtrees)
  let properties := textKeys grammar clears .localPropertySpecFields
    (caches.byText .localPropertySpecFields)
  refine ⟨SpecCache.select (popAll (caches.bySpec .sdfSpecFields) fields)
      (popAll (caches.bySpec .dirtySdfSpecs) dirty),
    TextCache.select (popAll (caches.byText .dirtySdfSubtrees) subtrees)
      (popAll (caches.byText .localPropertySpecFields) properties),
    ?_, ?_, ?_, ?_⟩
  · unfold purgeSdfPaths
    rw [fieldsFound, dirtyFound]
    rfl
  · intro cache key member
    cases cache with
    | sdfSpecFields => exact mem_keys_of_popAll member
    | dirtySdfSpecs => exact mem_keys_of_popAll member
  · intro cache kind text owner owned
    cases cache with
    | sdfSpecFields => exact get?_popAll_of_iff (fieldsListed kind text owner owned)
    | dirtySdfSpecs => exact get?_popAll_of_iff (dirtyListed kind text owner owned)
  · intro cache text
    cases cache with
    | localPropertySpecFields =>
        refine (get?_popAll_of_iff mem_textKeys).trans (if_congr ?_ rfl rfl)
        simp
    | dirtySdfSubtrees =>
        refine get?_popAll_of_iff ?_
        cases preserveSdf with
        | true => simp [subtrees]
        | false => simpa [subtrees] using mem_textKeys

theorem mem_forgetPrim {path : PathText} :
    path ∈ (caches.forgetPrim prim).knownPrims ↔ path ∈ caches.knownPrims ∧ path ≠ prim := by
  unfold EmitterCaches.forgetPrim
  split
  · exact Finset.mem_erase.trans and_comm
  · next unknown =>
      constructor
      · exact fun known => ⟨known, fun same => unknown (same ▸ known)⟩
      · exact And.left

theorem toPathCaches_forgetPrim :
    (caches.forgetPrim prim).toPathCaches = caches.toPathCaches := by
  unfold EmitterCaches.forgetPrim
  split <;> rfl

theorem purgePrims_spec (prim : PathText) (agrees : caches.IndexAgrees)
    (includeRoot includeDescendants : Bool) :
    let after := caches.purgePrims prim includeRoot includeDescendants
    after.IndexAgrees ∧ after.bySpec = caches.bySpec ∧ after.byText = caches.byText ∧
      ∃ paths : List PathText,
        (∀ path, path ∈ paths ↔ includeRoot = true ∧ path = prim ∨
          includeDescendants = true ∧ path ∈ caches.knownPrims ∧ InRange prim path) ∧
        (∀ path, path ∈ after.knownPrims ↔ path ∈ caches.knownPrims ∧ path ∉ paths) ∧
        (∀ path, path ∈ after.dirty ↔ path ∈ caches.dirty ∧ path ∉ paths) ∧
        ∀ cache path, (after.byPrim cache).get? path =
          if path ∈ paths then none else (caches.byPrim cache).get? path := by
  have forgotten : ∃ (below : List PathText) (rest : EmitterCaches Value),
      below = (if includeDescendants then caches.rangePaths prim else []) ∧
      rest = (if includeDescendants then caches.forgetRange prim else caches) ∧
      rest.IndexAgrees ∧ rest.toPathCaches = caches.toPathCaches ∧
      (∀ path, path ∈ below ↔
        includeDescendants = true ∧ path ∈ caches.knownPrims ∧ InRange prim path) ∧
      ∀ path, path ∈ rest.knownPrims ↔ path ∈ caches.knownPrims ∧ path ∉ below := by
    cases includeDescendants with
    | false => exact ⟨_, _, rfl, rfl, agrees, rfl, by simp, by simp⟩
    | true =>
        refine ⟨_, _, rfl, rfl, agrees.forgetRange prim, rfl, ?_, ?_⟩
        · simpa using fun path => mem_rangePaths agrees
        · intro path
          exact Finset.mem_sdiff.trans (and_congr_right fun _ => not_congr List.mem_toFinset)
  obtain ⟨below, rest, belowIs, restIs, restAgrees, restCaches, mem_below, mem_rest⟩ := forgotten
  unfold purgePrims
  dsimp only
  rw [← belowIs, ← restIs]
  have popped : ∀ (left : EmitterCaches Value) (paths : List PathText),
      left.toPathCaches = caches.toPathCaches → ∀ cache path,
        ((left.popPrims paths).byPrim cache).get? path =
          if path ∈ paths then none else (caches.byPrim cache).get? path := by
    intro left paths same cache path
    rw [← same]
    have dropped := get?_popAll paths (left.byPrim cache) path
    by_cases listed : path ∈ paths
    · rw [if_pos listed]
      exact dropped.trans (if_pos listed)
    · rw [if_neg listed]
      exact dropped.trans (if_neg listed)
  have undirtied : ∀ (left : EmitterCaches Value) (paths : List PathText),
      left.toPathCaches = caches.toPathCaches → ∀ path,
        path ∈ (left.popPrims paths).dirty ↔ path ∈ caches.dirty ∧ path ∉ paths := by
    intro left paths same path
    rw [← same]
    exact Finset.mem_sdiff.trans (and_congr_right fun _ => not_congr List.mem_toFinset)
  cases includeRoot with
  | false =>
      rw [if_neg Bool.false_ne_true]
      have specs : rest.bySpec = caches.bySpec := congrArg _ restCaches
      have texts : rest.byText = caches.byText := congrArg _ restCaches
      refine ⟨restAgrees, specs, texts, below, ?_, mem_rest, undirtied rest below restCaches,
        popped rest below restCaches⟩
      simpa using mem_below
  | true =>
      rw [if_pos rfl]
      have left : (rest.forgetPrim prim).toPathCaches = caches.toPathCaches :=
        toPathCaches_forgetPrim.trans restCaches
      have specs : (rest.forgetPrim prim).bySpec = caches.bySpec := congrArg _ left
      have texts : (rest.forgetPrim prim).byText = caches.byText := congrArg _ left
      refine ⟨restAgrees.forgetPrim prim, specs, texts, below ++ [prim], ?_, ?_,
        undirtied _ _ left, popped _ _ left⟩
      · intro path
        rw [List.mem_append, List.mem_singleton, mem_below, or_comm]
        simp
      · intro path
        rw [List.mem_append, List.mem_singleton, not_or, ← and_assoc, ← mem_rest]
        exact mem_forgetPrim

/-- The prims that a purge of a subtree has to find among those with entries. -/
theorem purgeReaches_iff : caches.PurgeReaches prim ↔
    (∀ path ∈ caches.knownPrims, (prim ++ ['/']) <+: path → InRange prim path) ∧
      ∀ path, (prim ++ ['/']) <+: path →
        (path ∈ caches.dirty ∨ ∃ cache, ((caches.byPrim cache).get? path).isSome = true) →
          path ∈ caches.knownPrims := by
  constructor
  · rintro ⟨plane, known⟩
    refine ⟨?_, known⟩
    rintro path found ⟨rest, rfl⟩
    have split : prim ++ ['/'] ++ rest = prim ++ '/' :: rest := by simp
    refine ⟨rest, split, ?_⟩
    intro next first
    cases rest with
    | nil => cases first
    | cons letter rest =>
        cases first
        exact plane next rest (split ▸ found)
  · rintro ⟨inRange, known⟩
    refine ⟨?_, known⟩
    intro next rest found
    obtain ⟨other, same, bounded⟩ := inRange _ found ⟨next :: rest, by simp⟩
    have tail : next :: rest = other := List.cons_injective (List.append_cancel_left same)
    exact bounded next (tail ▸ rfl)

/-- A purge does not raise, and it removes exactly the entries of the subtree if and only if every prim
below that has entries is one that it finds. -/
theorem purgeCaches_spec (agrees : caches.IndexAgrees) (accepted : caches.Accepted grammar)
    (includeRoot includeDescendants preserveSdf : Bool) :
    ∃ after, caches.purgeCaches grammar prim includeRoot includeDescendants preserveSdf = some after ∧
      after.IndexAgrees ∧ after.Accepted grammar ∧
      (includeDescendants = true →
        (PurgedExactly grammar caches after prim includeRoot preserveSdf ↔
          caches.PurgeReaches prim)) := by
  obtain ⟨leftAgrees, sameSpecs, sameTexts, paths, mem_paths, known, dirty, byPrim⟩ :=
    purgePrims_spec prim agrees includeRoot includeDescendants
  have leftAccepted : (caches.purgePrims prim includeRoot includeDescendants).Accepted grammar := by
    unfold PathCaches.Accepted
    rw [sameSpecs]
    exact accepted
  obtain ⟨bySpec, byText, purged, keys, specs, texts⟩ := purgeSdfPaths_spec leftAccepted
    (fun owner => (includeRoot && owner = prim) ||
      (includeDescendants && (prim ++ ['/']).isPrefixOf owner)) preserveSdf
  refine ⟨_, purged, leftAgrees, fun cache key member =>
    leftAccepted cache key (keys cache key member), ?_⟩
  rintro rfl
  have clears : ∀ owner, ((includeRoot && owner = prim) ||
      (true && (prim ++ ['/']).isPrefixOf owner)) = true ↔ Purged prim includeRoot owner := by
    intro owner
    unfold Purged
    simp
  simp only [clears, sameSpecs, sameTexts] at specs texts
  have found_of_mem : ∀ path, (prim ++ ['/']) <+: path → path ∈ paths →
      path ∈ caches.knownPrims ∧ InRange prim path := by
    intro path below listed
    rcases (mem_paths path).1 listed with ⟨-, same⟩ | ⟨-, found⟩
    · exact absurd same (ne_of_below below)
    · exact found
  rw [purgeReaches_iff]
  constructor
  · intro purges
    constructor
    · intro path here below
      by_contra unreached
      have left := (known path).2 ⟨here, fun listed => unreached (found_of_mem path below listed).2⟩
      exact ((purges.known path).1 left).2 (.inr below)
    · intro path below entry
      by_contra unknown
      have unlisted : path ∉ paths := fun listed => unknown (found_of_mem path below listed).1
      rcases entry with pending | ⟨cache, present⟩
      · exact ((purges.dirty path).1 ((dirty path).2 ⟨pending, unlisted⟩)).2 (.inr below)
      · have gone := (purges.byPrim cache path).trans (if_pos (.inr below))
        rw [← (byPrim cache path).trans (if_neg unlisted), gone] at present
        cases present
  · rintro ⟨inRange, reaches⟩
    have listed_iff : ∀ path, (path ∈ caches.knownPrims ∨ path ∈ caches.dirty ∨
        ∃ cache, ((caches.byPrim cache).get? path).isSome = true) →
          (path ∈ paths ↔ Purged prim includeRoot path) := by
      intro path entry
      rw [mem_paths]
      refine or_congr_right ⟨fun found => found.2.2.below, fun below => ?_⟩
      have here : path ∈ caches.knownPrims := entry.elim id (reaches path below)
      exact ⟨rfl, here, inRange path here below⟩
    constructor
    · intro path
      refine (known path).trans (and_congr_right fun here => not_congr ?_)
      exact listed_iff path (.inl here)
    · intro path
      refine (dirty path).trans (and_congr_right fun here => not_congr ?_)
      exact listed_iff path (.inr (.inl here))
    · intro cache path
      rw [byPrim]
      cases present : (caches.byPrim cache).get? path with
      | none => rw [ite_self, ite_self]
      | some value =>
          refine if_congr (listed_iff path (.inr (.inr ⟨cache, ?_⟩))) rfl rfl
          rw [present]
          rfl
    · exact specs
    · exact texts

end EmitterCaches

end UsdConnect
