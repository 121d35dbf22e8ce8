/-
Purpose: A migration moves the subtree of a prim exactly when it reaches every entry of it: the
  known prim, its snapshot and state, and specs and properties by path text.
Trusted boundary: none
Main exports: get?_moveAllTo, MovesOut, migrateCaches_exact, migratedExactly_needs
-/
import UsdConnect.Lib.Relocation
import UsdConnect.Proofs.CachePurges
import UsdConnect.Proofs.PrimTracking

namespace UsdConnect

open Relocation TrackedPrims

/-! ### Texts of spec paths -/

section Texts

variable {old new rest : PathText}

theorem getPrimPath_append (plain : ∀ letter ∈ old, letter ≠ '{' ∧ letter ≠ '.') :
    getPrimPath false (old ++ rest) = old ++ getPrimPath false rest := by
  induction old with
  | nil => rfl
  | cons letter old ih =>
      obtain ⟨unbraced, undotted⟩ := plain letter List.mem_cons_self
      have later := ih fun other member => plain other (List.mem_cons_of_mem letter member)
      simp [getPrimPath, unbraced, undotted, later]

theorem stripVariants_append (plain : ∀ letter ∈ old, letter ≠ '{' ∧ letter ≠ '.') :
    stripVariants false false (old ++ rest) = old ++ stripVariants false false rest := by
  induction old with
  | nil => rfl
  | cons letter old ih =>
      have unbraced := (plain letter List.mem_cons_self).1
      have later := ih fun other member => plain other (List.mem_cons_of_mem letter member)
      simp [stripVariants, unbraced, later]

/-- A path behind a prim has the owner that its rest has behind that prim. -/
theorem scenePrimPath_append (plain : ∀ letter ∈ old, letter ≠ '{' ∧ letter ≠ '.') :
    scenePrimPath (old ++ rest) = old ++ scenePrimPath rest := by
  unfold scenePrimPath
  rw [getPrimPath_append plain, stripVariants_append plain]

theorem moveText_append : EmitterCaches.moveText old new (old ++ rest) = new ++ rest := by
  unfold EmitterCaches.moveText
  rw [List.drop_left]

/-- What follows a prim whose subtree holds the owner begins a child, a selection or a property. -/
theorem continues_of_inSubtree {owner : PathText → PathText}
    (same : ∀ letter tail, letter ≠ '{' → letter ≠ '.' →
      (owner (letter :: tail)).head? = some letter)
    (within : InSubtree old (old ++ owner rest)) : Continues rest := by
  cases rest with
  | nil => simp [Continues]
  | cons letter tail =>
      by_cases braced : letter = '{'
      · simp [Continues, braced]
      by_cases dotted : letter = '.'
      · simp [Continues, dotted]
      have first := same letter tail braced dotted
      obtain ⟨other, split, follows⟩ := inSubtree_iff.1 within
      rw [← List.append_cancel_left split] at follows
      rcases follows with empty | ⟨more, slash⟩
      · rw [empty] at first
        cases first
      · rw [slash] at first
        cases first
        simp [Continues]

theorem head?_getPrimPath {letter : Char} (tail : PathText) (unbraced : letter ≠ '{')
    (undotted : letter ≠ '.') : (getPrimPath false (letter :: tail)).head? = some letter := by
  simp [getPrimPath, unbraced, undotted]

theorem head?_scenePrimPath {letter : Char} (tail : PathText) (unbraced : letter ≠ '{')
    (undotted : letter ≠ '.') : (scenePrimPath (letter :: tail)).head? = some letter := by
  simp [scenePrimPath, getPrimPath, stripVariants, unbraced, undotted]

end Texts

namespace PathGrammar

variable {grammar : PathGrammar} {old new text owner : PathText}

/-- The subtree of a prim holds neither the empty path nor the root. -/
theorem ne_of_inSubtree (isOld : grammar.isPrim old = true) (within : InSubtree old owner) :
    owner ≠ [] ∧ owner ≠ ['/'] := by
  obtain ⟨slash, notRoot⟩ := grammar.absolute old isOld
  obtain ⟨rest, rfl, -⟩ := inSubtree_iff.1 within
  cases old with
  | nil => cases slash
  | cons letter old =>
      cases slash
      refine ⟨List.cons_ne_nil _ _, ?_⟩
      intro same
      have empty : old = [] ∧ rest = [] := by simpa using same
      exact notRoot (by rw [empty.1])

/-- The entry of a text cache at the new path belongs to the moved owner. -/
theorem textOwner_replaced {cache : TextCache} (isOld : grammar.isPrim old = true)
    (isNew : grammar.isPrim new = true) (front : old <+: text)
    (within : InSubtree old (grammar.textOwner cache text)) :
    grammar.textOwner cache (EmitterCaches.moveText old new text) =
      EmitterCaches.moveText old new (grammar.textOwner cache text) := by
  obtain ⟨rest, rfl⟩ := front
  have plainOld := grammar.plain old isOld
  have plainNew := grammar.plain new isNew
  by_cases valid : grammar.valid (old ++ rest) = true
  · have replaced : Continues rest → grammar.valid (new ++ rest) = true := fun follows =>
      grammar.valid_replaced old new rest isOld isNew follows valid
    unfold textOwner at within ⊢
    rw [if_pos valid] at within ⊢
    cases cache with
    | dirtySdfSubtrees =>
        dsimp only at within ⊢
        rw [scenePrimPath_append plainOld] at within ⊢
        have follows := continues_of_inSubtree
          (fun letter tail unbraced undotted => head?_scenePrimPath tail unbraced undotted) within
        rw [moveText_append, moveText_append, if_pos (replaced follows),
          scenePrimPath_append plainNew]
    | localPropertySpecFields =>
        dsimp only at within ⊢
        rw [getPrimPath_append plainOld] at within ⊢
        have follows := continues_of_inSubtree
          (fun letter tail unbraced undotted => head?_getPrimPath tail unbraced undotted) within
        rw [moveText_append, moveText_append, if_pos (replaced follows),
          getPrimPath_append plainNew]
  · have away : grammar.textOwner cache (old ++ rest) = [] := if_neg valid
    exact absurd away (ne_of_inSubtree isOld within).1

theorem eventPrimPath_replaced {kind : SpecKind} (isOld : grammar.isPrim old = true)
    (isNew : grammar.isPrim new = true) (front : old <+: text)
    (owned : grammar.eventPrimPath kind text = some owner) (within : InSubtree old owner) :
    scenePrimPath text = owner ∧
      grammar.accepts kind (EmitterCaches.moveText old new text) = true ∧
      scenePrimPath (EmitterCaches.moveText old new text) = EmitterCaches.moveText old new owner ∧
      grammar.eventPrimPath kind (EmitterCaches.moveText old new text) =
        some (EmitterCaches.moveText old new owner) := by
  obtain ⟨rest, rfl⟩ := front
  unfold eventPrimPath at owned ⊢
  split at owned
  · next accepted =>
      have prim : kind ≠ .layer := by
        rintro rfl
        cases owned
        exact (ne_of_inSubtree isOld within).2 rfl
      rw [if_neg prim] at owned ⊢
      cases owned
      rw [scenePrimPath_append (grammar.plain old isOld)] at within ⊢
      have follows := continues_of_inSubtree
        (fun letter tail unbraced undotted => head?_scenePrimPath tail unbraced undotted) within
      have replaced := grammar.accepts_replaced kind old new rest isOld isNew follows accepted
      rw [moveText_append, moveText_append, scenePrimPath_append (grammar.plain new isNew),
        if_pos replaced]
      exact ⟨rfl, replaced, rfl, rfl⟩
  · cases owned

end PathGrammar

/-! ### Moves in a dictionary -/

section Moves

variable {Key Value : Type} [DecidableEq Key]
variable {goal : Key → Key} {sources : List Key} {dict : OrderedDict Key Value} {source : Key}

theorem moveAllTo_absent (absent : dict.get? source = none) :
    moveAllTo goal dict (source :: sources) = moveAllTo goal dict sources := by
  unfold moveAllTo
  rw [List.foldl_cons, absent]

theorem moveAllTo_present {value : Value} (present : dict.get? source = some value) :
    moveAllTo goal dict (source :: sources) =
      moveAllTo goal ((dict.pop source).set (goal source) value) sources := by
  unfold moveAllTo
  rw [List.foldl_cons, present]

/-- The loop over the sources moves the entries of a map. -/
theorem get?_moveAllTo : (moveAllTo goal dict sources).get? =
    moveAll (fun key => some (goal key)) dict.get? sources := by
  induction sources generalizing dict with
  | nil => rfl
  | cons source sources ih =>
      have moved : moveAll (fun key => some (goal key)) dict.get? (source :: sources) =
          moveAll _ (move (fun key => some (goal key)) dict.get? source) sources := rfl
      have turn := @move_moved _ Value _ (fun key => some (goal key)) source _ rfl dict.get?
      rw [moved]
      cases found : dict.get? source with
      | none =>
          rw [moveAllTo_absent found, ih]
          congr 1
          funext other
          rw [turn, found, Option.none_or, ite_self]
          by_cases same : other = source
          · rw [if_pos same, same, found]
          · rw [if_neg same]
      | some value =>
          rw [moveAllTo_present found, ih, OrderedDict.get?_set, OrderedDict.get?_pop]
          congr 1
          funext other
          rw [turn, found, Option.some_or, Function.update_apply, Function.update_apply]

/-- What holds of the keys and of the places that sources move to holds of the keys afterwards. -/
theorem keys_moveAllTo {law : Key → Prop} (held : ∀ key ∈ dict.keys, law key)
    (moves : ∀ source ∈ sources, law (goal source)) :
    ∀ key ∈ (moveAllTo goal dict sources).keys, law key := by
  induction sources generalizing dict with
  | nil => exact held
  | cons source sources ih =>
      have later : ∀ other ∈ sources, law (goal other) :=
        fun other listed => moves other (List.mem_cons_of_mem source listed)
      cases found : dict.get? source with
      | none =>
          rw [moveAllTo_absent found]
          exact ih held later
      | some value =>
          rw [moveAllTo_present found]
          refine ih ?_ later
          intro key member
          rcases (OrderedDict.mem_keys_set _ _ _ _).1 member with same | old
          · rw [same]
            exact moves source List.mem_cons_self
          · exact held key ((OrderedDict.mem_keys_pop _ _ _).1 old).1

end Moves

namespace EmitterCaches

variable {Value : Type} {grammar : PathGrammar} {caches : EmitterCaches Value}
variable {prim old new : PathText}

/-! ### Migrations -/

theorem moveText_self : moveText old new old = new := by
  have split := @moveText_append old new []
  rwa [List.append_nil, List.append_nil] at split

theorem moveText_injective {text other : PathText} (front : old <+: text)
    (otherFront : old <+: other) (same : moveText old new text = moveText old new other) :
    text = other := by
  obtain ⟨rest, rfl⟩ := front
  obtain ⟨otherRest, rfl⟩ := otherFront
  rw [moveText_append, moveText_append] at same
  rw [List.append_cancel_left same]

/-- The sources are the keys of a subtree, and each moves to a place of its own outside of it. -/
structure MovesOut {Key : Type} [DecidableEq Key] (old : PathText) (ownerOf : Key → Option PathText)
    (goal : Key → Key) (dict : OrderedDict Key Value) (sources : List Key) : Prop where
  listed : ∀ key owner, ownerOf key = some owner → InSubtree old owner → key ∈ dict.keys →
    key ∈ sources
  owned : ∀ key ∈ sources, ∃ owner, ownerOf key = some owner ∧ InSubtree old owner
  leaves : ∀ key ∈ sources, ∃ owner, ownerOf (goal key) = some owner ∧ ¬ InSubtree old owner
  injective : ∀ key ∈ sources, ∀ other ∈ sources, goal key = goal other → key = other

/-- None of the keys of the subtree is left, and each entry is found where its key moved. -/
theorem MovesOut.get? {Key : Type} [DecidableEq Key] {ownerOf : Key → Option PathText}
    {goal : Key → Key} {dict : OrderedDict Key Value} {sources : List Key}
    (moves : MovesOut old ownerOf goal dict sources) (key : Key) {owner : PathText}
    (own : ownerOf key = some owner) (within : InSubtree old owner) :
    (moveAllTo goal dict sources).get? key = none ∧
      ∀ value, dict.get? key = some value →
        (moveAllTo goal dict sources).get? (goal key) = some value := by
  have apart : ∀ source ∈ sources, key ≠ goal source := by
    rintro source member rfl
    obtain ⟨target, found, out⟩ := moves.leaves source member
    cases own.symm.trans found
    exact out within
  have out : ∀ source ∈ sources, goal source ∉ sources := by
    intro source member inside
    obtain ⟨target, found, left⟩ := moves.leaves source member
    obtain ⟨other, same, stays⟩ := moves.owned _ inside
    cases found.symm.trans same
    exact left stays
  rw [get?_moveAllTo]
  by_cases member : key ∈ sources
  · constructor
    · rw [moveAll_within (fun _ _ => rfl) out (fun _ => id) member, if_pos member]
    · intro value present
      rw [moveAll_new (fun _ _ => rfl) out (fun key other inside => moves.injective key inside other)
        (fun _ => id) member, if_pos member, present, Option.some_or]
  · have absent : dict.get? key = none :=
      OrderedDict.get?_eq_none fun present => member (moves.listed key owner own within present)
    constructor
    · rw [moveAll_elsewhere (fun _ _ => rfl) (fun _ => id) member apart, absent]
    · intro value present
      rw [absent] at present
      cases present

/-- The only entry of a subtree is found at the new path after it was put there. -/
theorem get?_pop_set_subtree {dict : OrderedDict PathText Value} {value : Value}
    (present : dict.get? old = some value)
    (alone : ∀ path, (dict.get? path).isSome = true → InSubtree old path → path = old)
    (out : ¬ InSubtree old new) {path : PathText} (within : InSubtree old path) :
    ((dict.pop old).set new value).get? path = none ∧
      ∀ found, dict.get? path = some found →
        ((dict.pop old).set new value).get? (moveText old new path) = some found := by
  have away : path ≠ new := by
    rintro rfl
    exact out within
  constructor
  · rw [OrderedDict.get?_set_of_ne _ value away, OrderedDict.get?_pop, Function.update_apply]
    split
    · rfl
    · next other =>
        by_contra held
        exact other (alone path (Option.isSome_iff_ne_none.2 held) within)
  · intro found here
    have same := alone path (by rw [here]; rfl) within
    subst same
    cases present.symm.trans here
    rw [moveText_self, OrderedDict.get?_set_self]

theorem mem_knowPrim {path : PathText} :
    path ∈ (caches.knowPrim prim).knownPrims ↔ path = prim ∨ path ∈ caches.knownPrims := by
  unfold EmitterCaches.knowPrim
  split
  · next known =>
      constructor
      · exact .inr
      · rintro (rfl | here)
        · exact known
        · exact here
  · exact Finset.mem_insert

theorem toPathCaches_knowPrim :
    (caches.knowPrim prim).toPathCaches = caches.toPathCaches := by
  unfold EmitterCaches.knowPrim
  split <;> rfl

theorem IndexAgrees.migratePrim (agrees : caches.IndexAgrees) (old new : PathText) :
    (caches.migratePrim old new).IndexAgrees := by
  have known : (if old ∈ caches.knownPrims then (caches.forgetPrim old).knowPrim new
      else caches).IndexAgrees := by
    split
    · exact (agrees.forgetPrim old).knowPrim new
    · exact agrees
  exact known

theorem migratePrim_spec (caches : EmitterCaches Value) (old new : PathText) :
    let after := caches.migratePrim old new
    after.dirty = caches.dirty ∧ after.bySpec = caches.bySpec ∧ after.byText = caches.byText ∧
      after.byPrim = Function.update caches.byPrim .primCache
        (moveAllTo (fun _ => new) (caches.byPrim .primCache) [old]) ∧
      ∀ path, path ∈ after.knownPrims ↔ path ∈ caches.knownPrims ∧ path ≠ old ∨
        old ∈ caches.knownPrims ∧ path = new := by
  have known : ∃ rest : EmitterCaches Value,
      rest = (if old ∈ caches.knownPrims then (caches.forgetPrim old).knowPrim new else caches) ∧
      rest.toPathCaches = caches.toPathCaches ∧
      ∀ path, path ∈ rest.knownPrims ↔ path ∈ caches.knownPrims ∧ path ≠ old ∨
        old ∈ caches.knownPrims ∧ path = new := by
    refine ⟨_, rfl, ?_, ?_⟩
    · split
      · exact toPathCaches_knowPrim.trans toPathCaches_forgetPrim
      · rfl
    · intro path
      split
      · next here => rw [mem_knowPrim, mem_forgetPrim, and_iff_right here, or_comm]
      · next unknown =>
          constructor
          · exact fun found => .inl ⟨found, fun same => unknown (same ▸ found)⟩
          · rintro (⟨found, -⟩ | ⟨here, -⟩)
            · exact found
            · exact absurd here unknown
  obtain ⟨rest, restIs, same, mem_rest⟩ := known
  unfold migratePrim
  dsimp only
  rw [← restIs, same]
  exact ⟨rfl, rfl, rfl, rfl, mem_rest⟩

/-- The specs and properties whose owner is in the subtree move, and nothing else does. -/
theorem migrateSpecs_spec (accepted : caches.Accepted grammar) (old new : PathText) :
    ∃ after, caches.migrateSpecs grammar old new = some after ∧ after.dirty = caches.dirty ∧
      after.knownPrims = caches.knownPrims ∧ after.byPrim = caches.byPrim ∧
      (∀ cache, after.byText cache = moveAllTo (moveText old new) (caches.byText cache)
        (textKeys grammar (fun owner => InSubtree old owner) cache (caches.byText cache))) ∧
      ∀ cache, ∃ keys,
        after.bySpec cache = moveAllTo (fun key => (key.1, moveText old new key.2))
          (caches.bySpec cache) keys ∧
        ∀ key, key ∈ keys ↔ key ∈ (caches.bySpec cache).keys ∧
          ∃ owner, grammar.eventPrimPath key.1 key.2 = some owner ∧ InSubtree old owner := by
  have found := fun cache =>
    specKeys_of_accepted (fun owner => InSubtree old owner) (accepted cache)
  obtain ⟨fields, fieldsFound, fieldsListed⟩ := found .sdfSpecFields
  obtain ⟨dirty, dirtyFound, dirtyListed⟩ := found .dirtySdfSpecs
  let target (key : SpecKind × PathText) := (key.1, moveText old new key.2)
  let after : EmitterCaches Value := { caches with
    bySpec := SpecCache.select (moveAllTo target (caches.bySpec .sdfSpecFields) fields)
      (moveAllTo target (caches.bySpec .dirtySdfSpecs) dirty)
    byText := fun cache => moveAllTo (moveText old new) (caches.byText cache)
      (textKeys grammar (fun owner => InSubtree old owner) cache (caches.byText cache)) }
  have ran : caches.migrateSpecs grammar old new = some after := by
    unfold migrateSpecs
    dsimp only
    rw [fieldsFound, dirtyFound]
    rfl
  refine ⟨after, ran, rfl, rfl, rfl, fun _ => rfl, ?_⟩
  intro cache
  cases cache with
  | sdfSpecFields => exact ⟨fields, rfl, by simpa using fieldsListed⟩
  | dirtySdfSpecs => exact ⟨dirty, rfl, by simpa using dirtyListed⟩

/-- A purge that raises nothing keeps the index, and so does a migration. -/
theorem IndexAgrees.purgeCaches {after : EmitterCaches Value}
    {includeRoot includeDescendants preserveSdf : Bool} (agrees : caches.IndexAgrees)
    (ran : caches.purgeCaches grammar prim includeRoot includeDescendants preserveSdf = some after) :
    after.IndexAgrees := by
  unfold EmitterCaches.purgeCaches purgeSdfPaths at ran
  obtain ⟨fields, -, later⟩ := Option.bind_eq_some_iff.1 ran
  obtain ⟨dirty, -, last⟩ := Option.bind_eq_some_iff.1 later
  cases last
  exact (purgePrims_spec prim agrees includeRoot includeDescendants).1


theorem IndexAgrees.migrateCaches {after : EmitterCaches Value} {reread : Option Value}
    (agrees : caches.IndexAgrees)
    (ran : caches.migrateCaches grammar old new reread = some after) : after.IndexAgrees := by
  obtain ⟨moved, movedRan, rfl⟩ := Option.map_eq_some_iff.1 ran
  have movedAgrees : moved.IndexAgrees := by
    unfold migrateSpecs at movedRan
    obtain ⟨fields, -, later⟩ := Option.bind_eq_some_iff.1 movedRan
    obtain ⟨dirty, -, last⟩ := Option.bind_eq_some_iff.1 later
    cases last
    exact agrees.migratePrim old new
  unfold migrateState
  split
  · exact movedAgrees
  · exact movedAgrees

theorem migrateState_spec (caches : EmitterCaches Value) (old new : PathText)
    (reread : Option Value) :
    let after := caches.migrateState old new reread
    after.dirty = caches.dirty ∧ after.bySpec = caches.bySpec ∧ after.byText = caches.byText ∧
      after.knownPrims = caches.knownPrims ∧
      (∀ cache, cache ≠ .localPrimStates → after.byPrim cache = caches.byPrim cache) ∧
      ((caches.byPrim .localPrimStates).get? old = none →
        after.byPrim .localPrimStates = caches.byPrim .localPrimStates) ∧
      ∀ value, (caches.byPrim .localPrimStates).get? old = some value → reread = some value →
        after.byPrim .localPrimStates = ((caches.byPrim .localPrimStates).pop old).set new value := by
  unfold migrateState
  cases found : (caches.byPrim .localPrimStates).get? old with
  | none => simp
  | some value =>
      refine ⟨rfl, rfl, rfl, rfl, ?_, ?_, ?_⟩
      · intro cache other
        exact Function.update_of_ne other _ caches.byPrim
      · intro absent
        cases absent
      · rintro read here rfl
        cases here
        dsimp only
        rw [Function.update_self]

section Reaches

variable {oldPrim newPrim : ScenePrim grammar} {reread : Option Value}

theorem moved_bySpec (accepted : caches.Accepted grammar)
    (reaches : caches.MigrateReaches grammar oldPrim.text newPrim.text reread) {cache : SpecCache}
    {keys : List (SpecKind × PathText)}
    (listed : ∀ key, key ∈ keys ↔ key ∈ (caches.bySpec cache).keys ∧
      ∃ owner, grammar.eventPrimPath key.1 key.2 = some owner ∧ InSubtree oldPrim.text owner) :
    let moved := moveAllTo (fun key => (key.1, moveText oldPrim.text newPrim.text key.2))
      (caches.bySpec cache) keys
    (∀ key ∈ moved.keys, grammar.accepts key.1 key.2 = true) ∧
      ∀ kind text owner, grammar.eventPrimPath kind text = some owner →
        InSubtree oldPrim.text owner →
          moved.get? (kind, text) = none ∧
            ∀ value, (caches.bySpec cache).get? (kind, text) = some value → ∃ other,
              Corresponds scenePrimPath oldPrim.text newPrim.text text other ∧
                moved.get? (kind, other) = some value := by
  have found : ∀ key ∈ keys, ∃ owner,
      grammar.eventPrimPath key.1 key.2 = some owner ∧ InSubtree oldPrim.text owner ∧
        oldPrim.text <+: key.2 ∧ ¬ InSubtree oldPrim.text (moveText oldPrim.text newPrim.text owner) := by
    intro key member
    obtain ⟨known, owner, owned, within⟩ := (listed key).1 member
    have present := OrderedDict.mem_keys_iff_isSome.1 known
    exact ⟨owner, owned, within, reaches.specs cache key.1 key.2 owner present owned within,
      reaches.leaves owner (.bySpec present owned) within⟩
  have replaced : ∀ {kind text owner}, oldPrim.text <+: text →
      grammar.eventPrimPath kind text = some owner → InSubtree oldPrim.text owner → _ :=
    fun front owned within =>
      PathGrammar.eventPrimPath_replaced oldPrim.isPrim newPrim.isPrim front owned within
  have moves : MovesOut oldPrim.text (fun key => grammar.eventPrimPath key.1 key.2)
      (fun key => (key.1, moveText oldPrim.text newPrim.text key.2)) (caches.bySpec cache) keys := by
    constructor
    · intro key owner owned within known
      exact (listed key).2 ⟨known, owner, owned, within⟩
    · intro key member
      obtain ⟨owner, owned, within, -⟩ := found key member
      exact ⟨owner, owned, within⟩
    · intro key member
      obtain ⟨owner, owned, within, front, out⟩ := found key member
      exact ⟨_, (replaced front owned within).2.2.2, out⟩
    · intro key member other otherMember same
      obtain ⟨-, -, -, front, -⟩ := found key member
      obtain ⟨-, -, -, otherFront, -⟩ := found other otherMember
      obtain ⟨kinds, texts⟩ := Prod.ext_iff.1 same
      exact Prod.ext kinds (moveText_injective front otherFront texts)
  constructor
  · refine keys_moveAllTo (accepted cache) ?_
    intro key member
    obtain ⟨owner, owned, within, front, -⟩ := found key member
    exact (replaced front owned within).2.1
  · intro kind text owner owned within
    obtain ⟨gone, arrived⟩ := moves.get? (kind, text) owned within
    refine ⟨gone, ?_⟩
    intro value present
    have member := (listed (kind, text)).2
      ⟨OrderedDict.mem_keys_of_get? present, owner, owned, within⟩
    obtain ⟨-, -, -, front, -⟩ := found _ member
    obtain ⟨own, -, goal, -⟩ := replaced front owned within
    refine ⟨moveText oldPrim.text newPrim.text text, ⟨?_, ?_⟩, arrived value present⟩
    · rw [own, goal]
    · rintro rest rfl
      exact moveText_append

theorem moved_byText (reaches : caches.MigrateReaches grammar oldPrim.text newPrim.text reread)
    (cache : TextCache) {text : PathText}
    (within : InSubtree oldPrim.text (grammar.textOwner cache text)) :
    let moved := moveAllTo (moveText oldPrim.text newPrim.text) (caches.byText cache)
      (textKeys grammar (fun owner => InSubtree oldPrim.text owner) cache (caches.byText cache))
    moved.get? text = none ∧
      ∀ value, (caches.byText cache).get? text = some value → ∃ other,
        Corresponds (grammar.textOwner cache) oldPrim.text newPrim.text text other ∧
          moved.get? other = some value := by
  have found : ∀ text ∈ textKeys grammar (fun owner => InSubtree oldPrim.text owner) cache
      (caches.byText cache), InSubtree oldPrim.text (grammar.textOwner cache text) ∧
        oldPrim.text <+: text ∧ ¬ InSubtree oldPrim.text
          (moveText oldPrim.text newPrim.text (grammar.textOwner cache text)) := by
    intro text member
    obtain ⟨known, inside⟩ := mem_textKeys.1 member
    have inside := of_decide_eq_true inside
    have present := OrderedDict.mem_keys_iff_isSome.1 known
    exact ⟨inside, reaches.texts cache text present inside,
      reaches.leaves _ (.byText present) inside⟩
  have replaced : ∀ {text}, oldPrim.text <+: text →
      InSubtree oldPrim.text (grammar.textOwner cache text) → _ :=
    fun front within =>
      PathGrammar.textOwner_replaced oldPrim.isPrim newPrim.isPrim front within
  have moves : MovesOut oldPrim.text (fun text => some (grammar.textOwner cache text))
      (moveText oldPrim.text newPrim.text) (caches.byText cache)
      (textKeys grammar (fun owner => InSubtree oldPrim.text owner) cache
        (caches.byText cache)) := by
    constructor
    · rintro text - ⟨⟩ inside known
      exact mem_textKeys.2 ⟨known, decide_eq_true inside⟩
    · intro text member
      exact ⟨_, rfl, (found text member).1⟩
    · intro text member
      obtain ⟨inside, front, out⟩ := found text member
      exact ⟨_, rfl, (replaced front inside).symm ▸ out⟩
    · intro text member other otherMember same
      exact moveText_injective (found text member).2.1 (found other otherMember).2.1 same
  obtain ⟨gone, arrived⟩ := moves.get? text rfl within
  refine ⟨gone, ?_⟩
  intro value present
  have member := moves.listed text _ rfl within (OrderedDict.mem_keys_of_get? present)
  refine ⟨moveText oldPrim.text newPrim.text text,
    ⟨replaced (found text member).2.1 within, ?_⟩, arrived value present⟩
  rintro rest rfl
  exact moveText_append

/-- The entry of a prim in a cache that a migration moves. -/
theorem moved_byPrim (reaches : caches.MigrateReaches grammar oldPrim.text newPrim.text reread)
    {cache : PrimCache} {after : OrderedDict PathText Value}
    (absent : (caches.byPrim cache).get? oldPrim.text = none → after = caches.byPrim cache)
    (present : ∀ value, (caches.byPrim cache).get? oldPrim.text = some value →
      after = ((caches.byPrim cache).pop oldPrim.text).set newPrim.text value)
    {path : PathText} (within : InSubtree oldPrim.text path) :
    after.get? path = none ∧ ∀ value, (caches.byPrim cache).get? path = some value →
      after.get? (moveText oldPrim.text newPrim.text path) = some value := by
  have alone : ∀ path, ((caches.byPrim cache).get? path).isSome = true →
      InSubtree oldPrim.text path → path = oldPrim.text :=
    fun path held inside => (reaches.prims cache path held inside).1
  cases found : (caches.byPrim cache).get? oldPrim.text with
  | none =>
      have empty : (caches.byPrim cache).get? path = none := by
        by_contra held
        have same := alone path (Option.isSome_iff_ne_none.2 held) within
        exact held (same ▸ found)
      rw [absent found, empty]
      exact ⟨rfl, fun value here => by cases here⟩
  | some value =>
      have out := reaches.leaves oldPrim.text (.byPrim (by rw [found]; rfl)) (.inl rfl)
      rw [moveText_self] at out
      rw [present value found]
      exact get?_pop_set_subtree found alone out within

/-- A migration that reaches every entry does not raise and moves the subtree. -/
theorem migrateCaches_exact (accepted : caches.Accepted grammar)
    (reaches : caches.MigrateReaches grammar oldPrim.text newPrim.text reread) :
    ∃ after, caches.migrateCaches grammar oldPrim.text newPrim.text reread = some after ∧
      after.Accepted grammar ∧
        MigratedExactly grammar caches after oldPrim.text newPrim.text := by
  obtain ⟨primDirty, primSpecs, primTexts, primByPrim, primKnown⟩ :=
    migratePrim_spec caches oldPrim.text newPrim.text
  have primAccepted : (caches.migratePrim oldPrim.text newPrim.text).Accepted grammar := by
    unfold PathCaches.Accepted
    rw [primSpecs]
    exact accepted
  obtain ⟨moved, ran, movedDirty, movedKnown, movedByPrim, movedTexts, movedSpecs⟩ :=
    migrateSpecs_spec primAccepted oldPrim.text newPrim.text
  obtain ⟨dirty, specs, texts, known, others, absent, present⟩ :=
    migrateState_spec moved oldPrim.text newPrim.text reread
  rw [primSpecs] at movedSpecs
  rw [primTexts] at movedTexts
  rw [movedByPrim, primByPrim] at others absent present
  refine ⟨moved.migrateState oldPrim.text newPrim.text reread,
    Option.map_eq_some_iff.2 ⟨moved, ran, rfl⟩, ?_, ?_, ?_, ?_, ?_, ?_⟩
  · intro cache
    rw [specs]
    obtain ⟨keys, same, listed⟩ := movedSpecs cache
    rw [same]
    exact (moved_bySpec accepted reaches listed).1
  · intro path within
    rw [known, movedKnown, primKnown, primKnown]
    constructor
    · rintro (⟨here, other⟩ | ⟨here, rfl⟩)
      · exact other (reaches.known path here within)
      · have out := reaches.leaves oldPrim.text (.known here) (.inl rfl)
        rw [moveText_self] at out
        exact out within
    · intro here
      have same := reaches.known path here within
      subst same
      exact .inr ⟨here, moveText_self⟩
  · intro path within
    rw [dirty, movedDirty, primDirty]
    exact ⟨fun pending => reaches.dirty path pending within,
      fun pending => absurd within (reaches.dirty path pending)⟩
  · intro cache path within
    have unmoved : ∀ other, other ≠ .primCache → Function.update caches.byPrim .primCache
        (moveAllTo (fun _ => newPrim.text) (caches.byPrim .primCache) [oldPrim.text]) other =
          caches.byPrim other :=
      fun other away => Function.update_of_ne away _ caches.byPrim
    have idle : ∀ other, other ≠ .primCache → other ≠ .localPrimStates →
        ∀ value, (caches.byPrim other).get? oldPrim.text ≠ some value := by
      intro other first second value here
      rcases (reaches.prims other oldPrim.text (by rw [here]; rfl) (.inl rfl)).2 with same | same
      · exact first same
      · exact second same
    cases cache with
    | primCache =>
        rw [others .primCache (by simp), Function.update_self]
        refine moved_byPrim reaches ?_ ?_ within
        · exact fun empty => moveAllTo_absent empty
        · exact fun value here => moveAllTo_present here
    | localPrimStates =>
        rw [unmoved .localPrimStates (by simp)] at absent present
        exact moved_byPrim reaches absent
          (fun value here => present value here (reaches.state value here)) within
    | dirtyAttrs =>
        rw [others .dirtyAttrs (by simp), unmoved .dirtyAttrs (by simp)]
        exact moved_byPrim reaches (fun _ => rfl)
          (fun value here => absurd here (idle .dirtyAttrs (by simp) (by simp) value)) within
    | sampleDirtyAttrs =>
        rw [others .sampleDirtyAttrs (by simp), unmoved .sampleDirtyAttrs (by simp)]
        exact moved_byPrim reaches (fun _ => rfl)
          (fun value here => absurd here (idle .sampleDirtyAttrs (by simp) (by simp) value)) within
  · intro cache
    rw [specs]
    obtain ⟨keys, same, listed⟩ := movedSpecs cache
    rw [same]
    exact (moved_bySpec accepted reaches listed).2
  · intro cache text within
    rw [texts, movedTexts]
    exact moved_byText reaches cache within

end Reaches

section Needs

variable {reread : Option Value} {path : PathText}

theorem isSome_pop_set {dict : OrderedDict PathText Value} {value : Value}
    (held : (dict.get? path).isSome = true) (other : path ≠ old) :
    (((dict.pop old).set new value).get? path).isSome = true := by
  rw [OrderedDict.get?_set, Function.update_apply]
  split
  · rfl
  · rwa [OrderedDict.get?_pop_of_ne dict other]

theorem isSome_migratePrim {cache : PrimCache}
    (held : ((caches.byPrim cache).get? path).isSome = true) (other : path ≠ old) :
    (((caches.migratePrim old new).byPrim cache).get? path).isSome = true := by
  rw [(migratePrim_spec caches old new).2.2.2.1]
  cases cache with
  | primCache =>
      rw [Function.update_self]
      cases found : (caches.byPrim .primCache).get? old with
      | none => rwa [moveAllTo_absent found]
      | some value =>
          rw [moveAllTo_present found]
          exact isSome_pop_set held other
  | dirtyAttrs => exact held
  | sampleDirtyAttrs => exact held
  | localPrimStates => exact held

theorem isSome_migrateState {cache : PrimCache}
    (held : ((caches.byPrim cache).get? path).isSome = true) (other : path ≠ old) :
    (((caches.migrateState old new reread).byPrim cache).get? path).isSome = true := by
  cases found : (caches.byPrim .localPrimStates).get? old with
  | none =>
      unfold migrateState
      rw [found]
      exact held
  | some value =>
      unfold migrateState
      rw [found]
      cases cache with
      | localPrimStates =>
          dsimp only
          rw [Function.update_self]
          cases reread with
          | none => rwa [OrderedDict.get?_pop_of_ne _ other]
          | some state => exact isSome_pop_set held other
      | primCache => exact held
      | dirtyAttrs => exact held
      | sampleDirtyAttrs => exact held

/-- A migration is exact only where no other prim of the subtree has entries by prim path and nothing of
it is pending. -/
theorem migratedExactly_needs {after : EmitterCaches Value} (accepted : caches.Accepted grammar)
    (ran : caches.migrateCaches grammar old new reread = some after)
    (exactly : MigratedExactly grammar caches after old new) :
    (∀ path ∈ caches.knownPrims, InSubtree old path → path = old) ∧
      (∀ path ∈ caches.dirty, ¬ InSubtree old path) ∧
      ∀ cache path, ((caches.byPrim cache).get? path).isSome = true → InSubtree old path →
        path = old ∧ (cache = .primCache ∨ cache = .localPrimStates) := by
  obtain ⟨primDirty, primSpecs, -, primByPrim, primKnown⟩ := migratePrim_spec caches old new
  have primAccepted : (caches.migratePrim old new).Accepted grammar := by
    unfold PathCaches.Accepted
    rw [primSpecs]
    exact accepted
  obtain ⟨moved, movedRan, movedDirty, movedKnown, movedByPrim, -⟩ :=
    migrateSpecs_spec primAccepted old new
  obtain ⟨dirty, -, -, known, others, -⟩ := migrateState_spec moved old new reread
  have same : after = moved.migrateState old new reread := by
    unfold EmitterCaches.migrateCaches at ran
    rw [movedRan] at ran
    exact (Option.some.inj ran).symm
  subst same
  have stays : ∀ {cache path}, ((caches.byPrim cache).get? path).isSome = true →
      InSubtree old path → path = old := by
    intro cache path held within
    by_contra other
    have heldMoved : ((moved.byPrim cache).get? path).isSome = true := by
      rw [movedByPrim]
      exact isSome_migratePrim held other
    have left : (((moved.migrateState old new reread).byPrim cache).get? path).isSome = true :=
      isSome_migrateState heldMoved other
    rw [(exactly.byPrim cache path within).1] at left
    cases left
  refine ⟨?_, ?_, ?_⟩
  · intro path here within
    by_contra other
    refine (exactly.known path within).1 ?_
    rw [known, movedKnown, primKnown]
    exact .inl ⟨here, other⟩
  · intro path pending within
    refine (exactly.dirty path within).1 ?_
    rw [dirty, movedDirty, primDirty]
    exact pending
  · intro cache path held within
    refine ⟨stays held within, ?_⟩
    by_contra neither
    obtain ⟨notPrim, notState⟩ := not_or.1 neither
    have gone := (exactly.byPrim cache path within).1
    rw [others cache notState, movedByPrim, primByPrim, Function.update_of_ne notPrim] at gone
    rw [gone] at held
    cases held

end Needs

end EmitterCaches

end UsdConnect
