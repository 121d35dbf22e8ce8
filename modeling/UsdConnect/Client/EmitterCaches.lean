/-
Purpose: The emitter's caches keyed by paths, with the sorted index of the prims it knows: what is
  purged with a prim and what moves with a renamed one.
Trusted boundary: the grammar of paths is that of `Sdf.Path`; what the caches hold is abstract
Main exports: PathGrammar, EmitterCaches.purgeCaches, EmitterCaches.migrateCaches
-/
import UsdConnect.Lib.Machine
import UsdConnect.Lib.OrderedDict
import UsdConnect.Lib.SortedPrefix
import UsdConnect.Server.PrimTracking
import UsdConnect.Usd.Layer

namespace UsdConnect

/-! ### Texts of spec paths -/

/-- `GetPrimPath`: neither the property nor the variant selections behind the last prim. -/
def getPrimPath : (inside : Bool) → PathText → PathText
  | _, [] => []
  | inside, letter :: rest =>
      if !inside && letter = '.' then []
      else
        let tail := getPrimPath (letter = '{' || (inside && letter ≠ '}')) rest
        if (inside || letter = '{') && tail.isEmpty then [] else letter :: tail

/-- `StripAllVariantSelections`: a prim behind a selection is separated by a slash instead. -/
def stripVariants : (inside behind : Bool) → PathText → PathText
  | _, _, [] => []
  | true, _, letter :: rest =>
      if letter = '}' then stripVariants false true rest else stripVariants true false rest
  | false, behind, letter :: rest =>
      if letter = '{' then stripVariants true false rest
      else if behind && letter ≠ '/' then '/' :: letter :: stripVariants false false rest
      else letter :: stripVariants false false rest

/-- The scene prim of a path. -/
def scenePrimPath (text : PathText) : PathText :=
  stripVariants false false (getPrimPath false text)

example : scenePrimPath "/World{look=red}Door{open=}.size".toList = "/World/Door".toList := by
  decide

/-- What follows a prim inside a longer path. -/
def Continues (rest : PathText) : Prop :=
  ∀ letter ∈ rest.head?, letter = '/' ∨ letter = '{' ∨ letter = '.'

/-- The paths that `Sdf.Path` parses, those that `_spec_path` accepts for a kind, and those of prims
without variant selections.  In a path a prim may be replaced by another. -/
structure PathGrammar where
  valid : PathText → Bool
  accepts : SpecKind → PathText → Bool
  isPrim : PathText → Bool
  isIdentifier : PathText → Bool
  absolute : ∀ prim, isPrim prim = true → prim.head? = some '/' ∧ prim ≠ ['/']
  plain : ∀ prim, isPrim prim = true → ∀ letter ∈ prim, letter ≠ '{' ∧ letter ≠ '.'
  renamed : ∀ prim name, isPrim prim = true → isIdentifier name = true →
    isPrim (beforeLastSlash prim ++ '/' :: name) = true
  valid_replaced : ∀ old new rest, isPrim old = true → isPrim new = true → Continues rest →
    valid (old ++ rest) = true → valid (new ++ rest) = true
  accepts_replaced : ∀ kind old new rest, isPrim old = true → isPrim new = true → Continues rest →
    accepts kind (old ++ rest) = true → accepts kind (new ++ rest) = true

/-- Path of a prim in the scene. -/
structure ScenePrim (grammar : PathGrammar) where
  text : PathText
  isPrim : grammar.isPrim text = true

/-- Name of a prim. -/
structure SceneName (grammar : PathGrammar) where
  text : PathText
  isIdentifier : grammar.isIdentifier text = true

/-- `f"{parent}/{new_name}"`. -/
def ScenePrim.renamed {grammar : PathGrammar} (prim : ScenePrim grammar)
    (newName : SceneName grammar) : ScenePrim grammar where
  text := beforeLastSlash prim.text ++ '/' :: newName.text
  isPrim := grammar.renamed _ _ prim.isPrim newName.isIdentifier

/-! ### Caches -/

/-- Caches by prim path. -/
inductive PrimCache where
  | primCache
  | dirtyAttrs
  | sampleDirtyAttrs
  | localPrimStates
  deriving DecidableEq

/-- Caches by kind and path of a spec. -/
inductive SpecCache where
  | sdfSpecFields
  | dirtySdfSpecs
  deriving DecidableEq

/-- Caches by spec path, and by property path. -/
inductive TextCache where
  | dirtySdfSubtrees
  | localPropertySpecFields
  deriving DecidableEq

/-- What stands for each spec cache. -/
def SpecCache.select {Content : Type} (fields dirty : Content) : SpecCache → Content
  | .sdfSpecFields => fields
  | .dirtySdfSpecs => dirty

/-- What stands for each text cache. -/
def TextCache.select {Content : Type} (subtrees properties : Content) : TextCache → Content
  | .dirtySdfSubtrees => subtrees
  | .localPropertySpecFields => properties

/-- The caches that purges clear, other than the known prims. -/
structure PathCaches (Value : Type) where
  dirty : Finset PathText := ∅
  byPrim : PrimCache → OrderedDict PathText Value := fun _ => .empty
  bySpec : SpecCache → OrderedDict (SpecKind × PathText) Value := fun _ => .empty
  byText : TextCache → OrderedDict PathText Value := fun _ => .empty

/-- The emitter's caches, with the known prims and their sorted index. -/
structure EmitterCaches (Value : Type) extends PathCaches Value where
  knownPrims : Finset PathText := ∅
  knownIndex : List PathText := []

variable {Value : Type}

namespace PathGrammar

/-- `event_prim_path`; the path of a spec that does not fit its kind raises. -/
def eventPrimPath (grammar : PathGrammar) (kind : SpecKind) (text : PathText) : Option PathText :=
  if grammar.accepts kind text then
    some (if kind = .layer then ['/'] else scenePrimPath text)
  else none

/-- The prim that an entry of a text cache belongs to.  A text that is no path gives the empty path. -/
def textOwner (grammar : PathGrammar) (cache : TextCache) (text : PathText) : PathText :=
  if grammar.valid text then
    match cache with
    | .dirtySdfSubtrees => scenePrimPath text
    | .localPropertySpecFields => getPrimPath false text
  else []

end PathGrammar

/-- Drop keys one after another. -/
def popAll {Key Value : Type} [DecidableEq Key] (dict : OrderedDict Key Value)
    (keys : List Key) : OrderedDict Key Value :=
  keys.foldl OrderedDict.pop dict

/-- `cache[target] = cache.pop(source)` for one source after another. -/
def moveAllTo {Key Value : Type} [DecidableEq Key] (target : Key → Key)
    (dict : OrderedDict Key Value) (sources : List Key) : OrderedDict Key Value :=
  sources.foldl (fun dict source =>
    match dict.get? source with
    | some value => (dict.pop source).set (target source) value
    | none => dict) dict

/-- At or below a prim as a purge of its subtree sees it: the prim itself only if it is included. -/
def Purged (prim : PathText) (includeRoot : Bool) (owner : PathText) : Prop :=
  includeRoot = true ∧ owner = prim ∨ (prim ++ ['/']) <+: owner

instance (prim : PathText) (includeRoot : Bool) (owner : PathText) :
    Decidable (Purged prim includeRoot owner) :=
  inferInstanceAs (Decidable (_ ∨ _))

namespace EmitterCaches

/-- `_know_prim`. -/
def knowPrim (caches : EmitterCaches Value) (path : PathText) : EmitterCaches Value :=
  if path ∈ caches.knownPrims then caches
  else
    { caches with
      knownPrims := insert path caches.knownPrims
      knownIndex := SortedPrefix.insort caches.knownIndex path }

/-- `_forget_prim`. -/
def forgetPrim (caches : EmitterCaches Value) (path : PathText) : EmitterCaches Value :=
  if path ∈ caches.knownPrims then
    { caches with
      knownPrims := caches.knownPrims.erase path
      knownIndex := caches.knownIndex.eraseIdx (SortedPrefix.bisectLeft caches.knownIndex path) }
  else caches

/-- `seed_prim_cache`: a snapshot of each prim and the fields of its local properties. -/
def seedPrimCache (caches : EmitterCaches Value) (prims properties : List (PathText × Value)) :
    EmitterCaches Value :=
  { caches with
    byPrim := Function.update caches.byPrim .primCache
      (prims.foldl (fun dict entry => dict.set entry.1 entry.2) (caches.byPrim .primCache))
    byText := Function.update caches.byText .localPropertySpecFields
      (properties.foldl (fun dict entry => dict.set entry.1 entry.2)
        (caches.byText .localPropertySpecFields)) }

/-- The keys of a spec cache whose owner passes a test; `none` when the path of a spec raises. -/
def specKeys (grammar : PathGrammar) (test : PathText → Bool)
    (dict : OrderedDict (SpecKind × PathText) Value) : Option (List (SpecKind × PathText)) := do
  let owners ← dict.keys.mapM fun key =>
    (grammar.eventPrimPath key.1 key.2).map fun owner => (key, owner)
  return (owners.filter fun entry => test entry.2).map (·.1)

/-- The keys of a text cache whose owner passes a test. -/
def textKeys (grammar : PathGrammar) (test : PathText → Bool) (cache : TextCache)
    (dict : OrderedDict PathText Value) : List PathText :=
  dict.keys.filter fun text => test (grammar.textOwner cache text)

/-- The keys of a spec cache that a purge clears, unless it preserves specs. -/
def clearedSpecs (grammar : PathGrammar) (clears : PathText → Bool) (preserveSdf : Bool)
    (dict : OrderedDict (SpecKind × PathText) Value) : Option (List (SpecKind × PathText)) :=
  if preserveSdf then some [] else specKeys grammar clears dict

/-- `_purge_sdf_paths`. -/
def purgeSdfPaths (grammar : PathGrammar) (caches : EmitterCaches Value)
    (clears : PathText → Bool) (preserveSdf : Bool) : Option (EmitterCaches Value) := do
  let fields ← clearedSpecs grammar clears preserveSdf (caches.bySpec .sdfSpecFields)
  let dirty ← clearedSpecs grammar clears preserveSdf (caches.bySpec .dirtySdfSpecs)
  let subtrees := if preserveSdf then [] else
    textKeys grammar clears .dirtySdfSubtrees (caches.byText .dirtySdfSubtrees)
  let properties := textKeys grammar clears .localPropertySpecFields
    (caches.byText .localPropertySpecFields)
  return { caches with
    bySpec := SpecCache.select (popAll (caches.bySpec .sdfSpecFields) fields)
      (popAll (caches.bySpec .dirtySdfSpecs) dirty)
    byText := TextCache.select (popAll (caches.byText .dirtySdfSubtrees) subtrees)
      (popAll (caches.byText .localPropertySpecFields) properties) }

/-- The range of the index below a prim. -/
def indexRange (caches : EmitterCaches Value) (prim : PathText) : Nat × Nat :=
  let start := prim ++ ['/']
  (SortedPrefix.bisectLeft caches.knownIndex start,
    SortedPrefix.bisectLeft caches.knownIndex (start ++ [Char.ofNat 0xFFFF]))

/-- The known prims in the range. -/
def rangePaths (caches : EmitterCaches Value) (prim : PathText) : List PathText :=
  let range := caches.indexRange prim
  SortedPrefix.slice caches.knownIndex range.1 range.2

/-- Bulk deletion of the range. -/
def forgetRange (caches : EmitterCaches Value) (prim : PathText) : EmitterCaches Value :=
  let range := caches.indexRange prim
  { caches with
    knownPrims := caches.knownPrims \ (caches.rangePaths prim).toFinset
    knownIndex := SortedPrefix.cut caches.knownIndex range.1 range.2 }

/-- Drop the entries of some prims. -/
def popPrims (caches : EmitterCaches Value) (paths : List PathText) : EmitterCaches Value :=
  { caches with
    byPrim := fun cache => popAll (caches.byPrim cache) paths
    dirty := caches.dirty \ paths.toFinset }

/-- The loop of `_purge_caches` over the prims it has found. -/
def purgePrims (caches : EmitterCaches Value) (prim : PathText)
    (includeRoot includeDescendants : Bool) : EmitterCaches Value :=
  let below := if includeDescendants then caches.rangePaths prim else []
  let forgotten := if includeDescendants then caches.forgetRange prim else caches
  if includeRoot then (forgotten.forgetPrim prim).popPrims (below ++ [prim])
  else forgotten.popPrims below

/-- `_purge_caches`; `none` when the path of a spec raises. -/
def purgeCaches (grammar : PathGrammar) (caches : EmitterCaches Value) (prim : PathText)
    (includeRoot includeDescendants preserveSdf : Bool) : Option (EmitterCaches Value) :=
  (caches.purgePrims prim includeRoot includeDescendants).purgeSdfPaths grammar
    (fun owner => (includeRoot && owner = prim) ||
      (includeDescendants && (prim ++ ['/']).isPrefixOf owner)) preserveSdf

/-- `new_path + spec_path[len(old_path):]`. -/
def moveText (old new text : PathText) : PathText :=
  new ++ text.drop old.length

/-- The known prim and its snapshot move. -/
def migratePrim (caches : EmitterCaches Value) (old new : PathText) : EmitterCaches Value :=
  let known := if old ∈ caches.knownPrims then (caches.forgetPrim old).knowPrim new else caches
  { known with
    byPrim := Function.update known.byPrim .primCache
      (moveAllTo (fun _ => new) (known.byPrim .primCache) [old]) }

/-- The specs and properties at and below the prim move. -/
def migrateSpecs (grammar : PathGrammar) (caches : EmitterCaches Value) (old new : PathText) :
    Option (EmitterCaches Value) := do
  let moves (owner : PathText) : Bool := TrackedPrims.InSubtree old owner
  let fields ← specKeys grammar moves (caches.bySpec .sdfSpecFields)
  let dirty ← specKeys grammar moves (caches.bySpec .dirtySdfSpecs)
  let target (key : SpecKind × PathText) := (key.1, moveText old new key.2)
  return { caches with
    bySpec := SpecCache.select (moveAllTo target (caches.bySpec .sdfSpecFields) fields)
      (moveAllTo target (caches.bySpec .dirtySdfSpecs) dirty)
    byText := fun cache =>
      moveAllTo (moveText old new) (caches.byText cache)
        (textKeys grammar moves cache (caches.byText cache)) }

/-- The authored state is read again at the new path. -/
def migrateState (caches : EmitterCaches Value) (old new : PathText) (reread : Option Value) :
    EmitterCaches Value :=
  match (caches.byPrim .localPrimStates).get? old with
  | none => caches
  | some _ =>
      let rest := (caches.byPrim .localPrimStates).pop old
      { caches with
        byPrim := Function.update caches.byPrim .localPrimStates
          (match reread with
          | some state => rest.set new state
          | none => rest) }

/-- `_migrate_caches`, given the state that the stage shows at the new path. -/
def migrateCaches (grammar : PathGrammar) (caches : EmitterCaches Value) (old new : PathText)
    (reread : Option Value) : Option (EmitterCaches Value) :=
  ((caches.migratePrim old new).migrateSpecs grammar old new).map fun moved =>
    moved.migrateState old new reread

end EmitterCaches

/-! ### Runs -/

/-- Specs stand at paths of their kinds. -/
def PathCaches.Accepted (grammar : PathGrammar) (caches : PathCaches Value) : Prop :=
  ∀ cache, ∀ key ∈ (caches.bySpec cache).keys, grammar.accepts key.1 key.2 = true

/-- What happens to the caches; `observe` is what notices and builds leave in all of them but the known
prims. -/
inductive CacheAction (grammar : PathGrammar) (Value : Type) where
  | know (prim : ScenePrim grammar)
  | forget (prim : ScenePrim grammar)
  | seed (prims properties : List (PathText × Value))
  | observe (caches : PathCaches Value) (accepted : caches.Accepted grammar)
  | purge (prim : ScenePrim grammar) (includeRoot includeDescendants preserveSdf : Bool)
  | migrate (old new : ScenePrim grammar) (reread : Option Value)
  | invalidateDeletePrim (prim : ScenePrim grammar)
  | invalidateDeactivatePrim (prim : ScenePrim grammar) (active : Bool)
  | invalidateRenamePrim (prim : ScenePrim grammar) (newName : Option (SceneName grammar))
      (reread : Option Value)

namespace EmitterCaches

/-- Caches that hold nothing. -/
def start : EmitterCaches Value := {}

/-- One step; `none` when it raises. -/
def step (grammar : PathGrammar) (caches : EmitterCaches Value) :
    CacheAction grammar Value → Option (EmitterCaches Value)
  | .know prim => some (caches.knowPrim prim.text)
  | .forget prim => some (caches.forgetPrim prim.text)
  | .seed prims properties => some (caches.seedPrimCache prims properties)
  | .observe next _ => some { caches with toPathCaches := next }
  | .purge prim includeRoot includeDescendants preserveSdf =>
      caches.purgeCaches grammar prim.text includeRoot includeDescendants preserveSdf
  | .migrate old new reread => caches.migrateCaches grammar old.text new.text reread
  | .invalidateDeletePrim prim => caches.purgeCaches grammar prim.text true true false
  | .invalidateDeactivatePrim prim active =>
      if active then some caches else caches.purgeCaches grammar prim.text true true false
  | .invalidateRenamePrim _ none _ => some caches
  | .invalidateRenamePrim prim (some newName) reread =>
      caches.migrateCaches grammar prim.text (prim.renamed newName).text reread

/-! ### What the claim is about -/

/-- The index is the sorted list, without duplicates, of the known prims. -/
def IndexAgrees (caches : EmitterCaches Value) : Prop :=
  caches.knownIndex.Pairwise (· < ·) ∧
    ∀ path, path ∈ caches.knownIndex ↔ path ∈ caches.knownPrims

/-- A purge with descendants removes the entries at the root, when it is included, and strictly below
it, and no others; preserved spec caches stay as they are. -/
structure PurgedExactly (grammar : PathGrammar) (before after : EmitterCaches Value)
    (prim : PathText) (includeRoot preserveSdf : Bool) : Prop where
  known : ∀ path, path ∈ after.knownPrims ↔ path ∈ before.knownPrims ∧ ¬ Purged prim includeRoot path
  dirty : ∀ path, path ∈ after.dirty ↔ path ∈ before.dirty ∧ ¬ Purged prim includeRoot path
  byPrim : ∀ cache path, (after.byPrim cache).get? path =
    if Purged prim includeRoot path then none else (before.byPrim cache).get? path
  bySpec : ∀ cache kind text owner, grammar.eventPrimPath kind text = some owner →
    (after.bySpec cache).get? (kind, text) =
      if preserveSdf = false ∧ Purged prim includeRoot owner then none
      else (before.bySpec cache).get? (kind, text)
  byText : ∀ cache text, (after.byText cache).get? text =
    if (cache = .dirtySdfSubtrees → preserveSdf = false) ∧
        Purged prim includeRoot (grammar.textOwner cache text) then none
    else (before.byText cache).get? text

/-- The purge of a subtree finds it: below the prim only known prims have entries by prim path, and no
known one goes on, right behind the slash, with a character from U+FFFF on. -/
structure PurgeReaches (caches : EmitterCaches Value) (prim : PathText) : Prop where
  plane : ∀ next rest, prim ++ '/' :: next :: rest ∈ caches.knownPrims → next < Char.ofNat 0xFFFF
  known : ∀ path, (prim ++ ['/']) <+: path →
    (path ∈ caches.dirty ∨ ∃ cache, ((caches.byPrim cache).get? path).isSome = true) →
      path ∈ caches.knownPrims

/-- The text of an entry at the new path: its owner has moved, and where the old path stood the new one
does. -/
structure Corresponds (owner : PathText → PathText) (old new text other : PathText) : Prop where
  owner : owner other = moveText old new (owner text)
  direct : ∀ rest, text = old ++ rest → other = new ++ rest

/-- A migration moves every entry at or below the old path to the new one and leaves nothing there. -/
structure MigratedExactly (grammar : PathGrammar) (before after : EmitterCaches Value)
    (old new : PathText) : Prop where
  known : ∀ path, TrackedPrims.InSubtree old path → path ∉ after.knownPrims ∧
    (path ∈ before.knownPrims → moveText old new path ∈ after.knownPrims)
  dirty : ∀ path, TrackedPrims.InSubtree old path → path ∉ after.dirty ∧
    (path ∈ before.dirty → moveText old new path ∈ after.dirty)
  byPrim : ∀ cache path, TrackedPrims.InSubtree old path →
    (after.byPrim cache).get? path = none ∧
      ∀ value, (before.byPrim cache).get? path = some value →
        (after.byPrim cache).get? (moveText old new path) = some value
  bySpec : ∀ cache kind text owner, grammar.eventPrimPath kind text = some owner →
    TrackedPrims.InSubtree old owner →
      (after.bySpec cache).get? (kind, text) = none ∧
        ∀ value, (before.bySpec cache).get? (kind, text) = some value → ∃ other,
          Corresponds scenePrimPath old new text other ∧
            (after.bySpec cache).get? (kind, other) = some value
  byText : ∀ cache text, TrackedPrims.InSubtree old (grammar.textOwner cache text) →
    (after.byText cache).get? text = none ∧
      ∀ value, (before.byText cache).get? text = some value → ∃ other,
        Corresponds (grammar.textOwner cache) old new text other ∧
          (after.byText cache).get? other = some value

/-- A prim that some entry belongs to. -/
inductive Occupied (grammar : PathGrammar) (caches : EmitterCaches Value) : PathText → Prop
  | known {path : PathText} : path ∈ caches.knownPrims → Occupied grammar caches path
  | byPrim {cache : PrimCache} {path : PathText} :
      ((caches.byPrim cache).get? path).isSome = true → Occupied grammar caches path
  | bySpec {cache : SpecCache} {kind : SpecKind} {text owner : PathText} :
      ((caches.bySpec cache).get? (kind, text)).isSome = true →
        grammar.eventPrimPath kind text = some owner → Occupied grammar caches owner
  | byText {cache : TextCache} {text : PathText} :
      ((caches.byText cache).get? text).isSome = true →
        Occupied grammar caches (grammar.textOwner cache text)

/-- A migration reaches every entry: no prim below the old path is known or has a snapshot or an
authored state, nothing at or below it is pending, the state read again is the old one, the paths of
specs and properties begin with the text of the old path, without a variant selection in between, and
no entry moves to a place at or below the old path. -/
structure MigrateReaches (grammar : PathGrammar) (caches : EmitterCaches Value)
    (old new : PathText) (reread : Option Value) : Prop where
  known : ∀ path ∈ caches.knownPrims, TrackedPrims.InSubtree old path → path = old
  prims : ∀ cache path, ((caches.byPrim cache).get? path).isSome = true →
    TrackedPrims.InSubtree old path → path = old ∧ (cache = .primCache ∨ cache = .localPrimStates)
  dirty : ∀ path ∈ caches.dirty, ¬ TrackedPrims.InSubtree old path
  state : ∀ value, (caches.byPrim .localPrimStates).get? old = some value → reread = some value
  specs : ∀ cache kind text owner, ((caches.bySpec cache).get? (kind, text)).isSome = true →
    grammar.eventPrimPath kind text = some owner → TrackedPrims.InSubtree old owner → old <+: text
  texts : ∀ cache text, ((caches.byText cache).get? text).isSome = true →
    TrackedPrims.InSubtree old (grammar.textOwner cache text) → old <+: text
  leaves : ∀ owner, Occupied grammar caches owner → TrackedPrims.InSubtree old owner →
    ¬ TrackedPrims.InSubtree old (moveText old new owner)

/-- Purges of subtrees and migrations find all that they are about. -/
def Reaches (grammar : PathGrammar) (caches : EmitterCaches Value) :
    CacheAction grammar Value → Prop
  | .purge prim _ includeDescendants _ => includeDescendants = true → caches.PurgeReaches prim.text
  | .migrate old new reread => caches.MigrateReaches grammar old.text new.text reread
  | .invalidateDeletePrim prim => caches.PurgeReaches prim.text
  | .invalidateDeactivatePrim prim active => active = false → caches.PurgeReaches prim.text
  | .invalidateRenamePrim prim (some newName) reread =>
      caches.MigrateReaches grammar prim.text (prim.renamed newName).text reread
  | _ => True

/-- What a purge of a subtree or a migration has to do. -/
def Agrees (grammar : PathGrammar) (before after : EmitterCaches Value) :
    CacheAction grammar Value → Prop
  | .purge prim includeRoot includeDescendants preserveSdf => includeDescendants = true →
      PurgedExactly grammar before after prim.text includeRoot preserveSdf
  | .migrate old new _ => MigratedExactly grammar before after old.text new.text
  | .invalidateDeletePrim prim => PurgedExactly grammar before after prim.text true false
  | .invalidateDeactivatePrim prim active => active = false →
      PurgedExactly grammar before after prim.text true false
  | .invalidateRenamePrim prim (some newName) _ =>
      MigratedExactly grammar before after prim.text (prim.renamed newName).text
  | _ => True

/-- The step does not raise, and what it does agrees. -/
def StepAgrees (grammar : PathGrammar) (before : EmitterCaches Value)
    (action : CacheAction grammar Value) : Prop :=
  ∃ after, step grammar before action = some after ∧ Agrees grammar before after action

end EmitterCaches

end UsdConnect
