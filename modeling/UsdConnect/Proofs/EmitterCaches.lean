/-
Purpose: In every run the index is the sorted list of the known prims, and where purges and
  migrations find all that they are about each of them is exact.
Trusted boundary: none
Main exports: pathCaches_agree, pathCaches_agree_session, not_stepAgrees_seeded
-/
import Mathlib.Data.Fintype.Basic
import UsdConnect.Proofs.CacheMigrations

namespace UsdConnect

open TrackedPrims

namespace EmitterCaches

variable {Value : Type} {grammar : PathGrammar} {caches : EmitterCaches Value}
variable {prim old new : PathText}

/-! ### Runs -/

theorem indexAgrees_start : (start : EmitterCaches Value).IndexAgrees :=
  ⟨List.Pairwise.nil, fun _ => by simp [start]⟩

theorem accepted_start : (start : EmitterCaches Value).Accepted grammar := by
  intro cache key member
  cases member

/-- Every step that does not raise keeps the index the sorted list of the known prims. -/
theorem IndexAgrees.step {action : CacheAction grammar Value} {after : EmitterCaches Value}
    (agrees : caches.IndexAgrees) (stepped : step grammar caches action = some after) :
    after.IndexAgrees := by
  cases action with
  | know prim =>
      cases stepped
      exact agrees.knowPrim prim.text
  | forget prim =>
      cases stepped
      exact agrees.forgetPrim prim.text
  | seed prims properties =>
      cases stepped
      exact agrees
  | observe next accepted =>
      cases stepped
      exact agrees
  | purge prim includeRoot includeDescendants preserveSdf => exact agrees.purgeCaches stepped
  | migrate old new reread => exact agrees.migrateCaches stepped
  | invalidateDeletePrim prim => exact agrees.purgeCaches stepped
  | invalidateDeactivatePrim prim active =>
      cases active with
      | true =>
          cases stepped
          exact agrees
      | false => exact agrees.purgeCaches stepped
  | invalidateRenamePrim prim newName reread =>
      cases newName with
      | none =>
          cases stepped
          exact agrees
      | some newName => exact agrees.migrateCaches stepped

/-- A step that finds all it is about does not raise, keeps specs at paths of their kinds, and does what
it has to. -/
theorem step_agrees (agrees : caches.IndexAgrees) (accepted : caches.Accepted grammar)
    {action : CacheAction grammar Value} (reaches : Reaches grammar caches action) :
    ∃ after, step grammar caches action = some after ∧ after.Accepted grammar ∧
      Agrees grammar caches after action := by
  have purges : ∀ (prim : PathText) (includeRoot includeDescendants preserveSdf : Bool),
      (includeDescendants = true → caches.PurgeReaches prim) →
        ∃ after, caches.purgeCaches grammar prim includeRoot includeDescendants preserveSdf =
          some after ∧ after.Accepted grammar ∧ (includeDescendants = true →
            PurgedExactly grammar caches after prim includeRoot preserveSdf) := by
    intro prim includeRoot includeDescendants preserveSdf finds
    obtain ⟨after, ran, -, kept, exact_iff⟩ :=
      purgeCaches_spec agrees accepted includeRoot includeDescendants preserveSdf
    exact ⟨after, ran, kept, fun descends => (exact_iff descends).2 (finds descends)⟩
  cases action with
  | know prim =>
      refine ⟨_, rfl, ?_, trivial⟩
      rw [toPathCaches_knowPrim]
      exact accepted
  | forget prim =>
      refine ⟨_, rfl, ?_, trivial⟩
      rw [toPathCaches_forgetPrim]
      exact accepted
  | seed prims properties => exact ⟨_, rfl, accepted, trivial⟩
  | observe next lawful => exact ⟨_, rfl, lawful, trivial⟩
  | purge prim includeRoot includeDescendants preserveSdf =>
      exact purges prim.text includeRoot includeDescendants preserveSdf reaches
  | migrate old new reread => exact migrateCaches_exact accepted reaches
  | invalidateDeletePrim prim =>
      obtain ⟨after, ran, kept, exactly⟩ := purges prim.text true true false fun _ => reaches
      exact ⟨after, ran, kept, exactly rfl⟩
  | invalidateDeactivatePrim prim active =>
      cases active with
      | true => exact ⟨caches, rfl, accepted, fun inactive => by cases inactive⟩
      | false =>
          obtain ⟨after, ran, kept, exactly⟩ :=
            purges prim.text true true false fun _ => reaches rfl
          exact ⟨after, ran, kept, fun _ => exactly rfl⟩
  | invalidateRenamePrim prim newName reread =>
      cases newName with
      | none => exact ⟨caches, rfl, accepted, trivial⟩
      | some newName => exact migrateCaches_exact accepted reaches

/-- A run whose steps all find what they are about does not raise, and each step does what it has to. -/
theorem run_agrees (actions : List (CacheAction grammar Value)) :
    ∀ caches : EmitterCaches Value, caches.IndexAgrees → caches.Accepted grammar →
      Machine.StepsMeet (step grammar) (Reaches grammar) caches actions →
        (∃ final, Machine.run (step grammar) caches actions = some final) ∧
          Machine.StepsMeet (step grammar) (StepAgrees grammar) caches actions := by
  induction actions with
  | nil => exact fun caches _ _ _ => ⟨⟨caches, rfl⟩, trivial⟩
  | cons action actions ih =>
      intro caches agrees accepted reach
      obtain ⟨after, stepped, kept, does⟩ := step_agrees agrees accepted reach.1
      obtain ⟨⟨final, ran⟩, later⟩ := ih after (agrees.step stepped) kept (reach.2 after stepped)
      exact ⟨⟨final, Option.bind_eq_some_iff.2 ⟨after, stepped, ran⟩⟩,
        Machine.stepsMeet_cons ⟨after, stepped, does⟩ stepped later⟩

/-- In every run the index is the sorted list of the known prims, and where purges and migrations find
all that they are about, no step raises and each purge and each migration is exact. -/
theorem pathCaches_agree (grammar : PathGrammar) (actions : List (CacheAction grammar Value)) :
    (∀ final : EmitterCaches Value,
      Machine.run (step grammar) start actions = some final → final.IndexAgrees) ∧
    (Machine.StepsMeet (step grammar) (Reaches grammar) start actions →
      (∃ final, Machine.run (step grammar) start actions = some final) ∧
        Machine.StepsMeet (step grammar) (StepAgrees grammar) start actions) := by
  constructor
  · intro final ran
    exact Machine.run_invariant (fun _ _ _ agrees stepped => agrees.step stepped)
      indexAgrees_start ran
  · exact run_agrees actions start indexAgrees_start accepted_start

/-! ### Deciding what is found -/

instance : Fintype PrimCache where
  elems := {.primCache, .dirtyAttrs, .sampleDirtyAttrs, .localPrimStates}
  complete cache := by cases cache <;> decide

instance : Fintype SpecCache where
  elems := {.sdfSpecFields, .dirtySdfSpecs}
  complete cache := by cases cache <;> decide

instance : Fintype TextCache where
  elems := {.dirtySdfSubtrees, .localPropertySpecFields}
  complete cache := by cases cache <;> decide

/-- Only keys have to be looked at to see whether a purge finds what it is about. -/
theorem purgeReaches_iff_keys : caches.PurgeReaches prim ↔
    (∀ path ∈ caches.knownPrims, (prim ++ ['/']) <+: path →
      ¬ path < prim ++ ['/'] ∧ path < prim ++ ['/'] ++ [Char.ofNat 0xFFFF]) ∧
    (∀ path ∈ caches.dirty, (prim ++ ['/']) <+: path → path ∈ caches.knownPrims) ∧
    ∀ cache, ∀ path ∈ (caches.byPrim cache).keys, (prim ++ ['/']) <+: path →
      path ∈ caches.knownPrims := by
  simp only [purgeReaches_iff, inRange_iff, OrderedDict.mem_keys_iff_isSome]
  refine and_congr_right fun _ => ⟨fun known => ⟨?_, ?_⟩, ?_⟩
  · exact fun path pending below => known path below (.inl pending)
  · exact fun cache path held below => known path below (.inr ⟨cache, held⟩)
  · rintro ⟨pending, held⟩ path below (entry | ⟨cache, entry⟩)
    · exact pending path entry below
    · exact held cache path entry below

instance : Decidable (caches.PurgeReaches prim) :=
  decidable_of_iff _ purgeReaches_iff_keys.symm

theorem forall_occupied_iff {law : PathText → Prop} :
    (∀ owner, Occupied grammar caches owner → law owner) ↔
      (∀ path ∈ caches.knownPrims, law path) ∧
      (∀ cache, ∀ path ∈ (caches.byPrim cache).keys, law path) ∧
      (∀ cache, ∀ key ∈ (caches.bySpec cache).keys,
        ∀ owner ∈ grammar.eventPrimPath key.1 key.2, law owner) ∧
      ∀ cache, ∀ text ∈ (caches.byText cache).keys, law (grammar.textOwner cache text) := by
  simp only [OrderedDict.mem_keys_iff_isSome, Option.mem_def]
  constructor
  · intro all
    exact ⟨fun path here => all path (.known here), fun cache path held => all path (.byPrim held),
      fun cache key held owner owned => all owner (.bySpec held owned),
      fun cache text held => all _ (.byText held)⟩
  · rintro ⟨known, byPrim, bySpec, byText⟩ owner occupied
    cases occupied with
    | known here => exact known owner here
    | byPrim held => exact byPrim _ owner held
    | bySpec held owned => exact bySpec _ _ held owner owned
    | byText held => exact byText _ _ held

instance {law : PathText → Prop} [DecidablePred law] :
    Decidable (∀ owner, Occupied grammar caches owner → law owner) :=
  decidable_of_iff _ forall_occupied_iff.symm

theorem migrateReaches_iff_keys {reread : Option Value} :
    caches.MigrateReaches grammar old new reread ↔
      (∀ path ∈ caches.knownPrims, InSubtree old path → path = old) ∧
      (∀ cache, ∀ path ∈ (caches.byPrim cache).keys, InSubtree old path →
        path = old ∧ (cache = .primCache ∨ cache = .localPrimStates)) ∧
      (∀ path ∈ caches.dirty, ¬ InSubtree old path) ∧
      (∀ value ∈ (caches.byPrim .localPrimStates).get? old, reread = some value) ∧
      (∀ cache, ∀ key ∈ (caches.bySpec cache).keys,
        ∀ owner ∈ grammar.eventPrimPath key.1 key.2, InSubtree old owner → old <+: key.2) ∧
      (∀ cache, ∀ text ∈ (caches.byText cache).keys,
        InSubtree old (grammar.textOwner cache text) → old <+: text) ∧
      ∀ owner, Occupied grammar caches owner → InSubtree old owner →
        ¬ InSubtree old (moveText old new owner) := by
  simp only [OrderedDict.mem_keys_iff_isSome, Option.mem_def]
  constructor
  · rintro ⟨known, prims, dirty, state, specs, texts, leaves⟩
    exact ⟨known, prims, dirty, state,
      fun cache key held owner => specs cache key.1 key.2 owner held, texts, leaves⟩
  · rintro ⟨known, prims, dirty, state, specs, texts, leaves⟩
    exact ⟨known, prims, dirty, state,
      fun cache kind text owner held => specs cache (kind, text) held owner, texts, leaves⟩

instance [DecidableEq Value] {reread : Option Value} :
    Decidable (caches.MigrateReaches grammar old new reread) :=
  decidable_of_iff _ migrateReaches_iff_keys.symm

instance [DecidableEq Value] (action : CacheAction grammar Value) :
    Decidable (Reaches grammar caches action) :=
  match action with
  | .know _ | .forget _ | .seed _ _ | .observe _ _ => .isTrue trivial
  | .purge prim _ includeDescendants _ =>
      inferInstanceAs (Decidable (includeDescendants = true → caches.PurgeReaches prim.text))
  | .migrate old new reread =>
      inferInstanceAs (Decidable (caches.MigrateReaches grammar old.text new.text reread))
  | .invalidateDeletePrim prim => inferInstanceAs (Decidable (caches.PurgeReaches prim.text))
  | .invalidateDeactivatePrim prim active =>
      inferInstanceAs (Decidable (active = false → caches.PurgeReaches prim.text))
  | .invalidateRenamePrim _ none _ => .isTrue trivial
  | .invalidateRenamePrim prim (some newName) reread =>
      inferInstanceAs (Decidable
        (caches.MigrateReaches grammar prim.text (prim.renamed newName).text reread))

end EmitterCaches

/-! ### A session and a seeded child -/

/-- Letters of names, for a grammar that knows no other rule. -/
def nameLetter (letter : Char) : Bool :=
  letter ≠ '{' && letter ≠ '.'

theorem head?_replaced {old new rest : PathText} (isNew : new.head? = some '/') :
    (old ++ rest).head? = some '/' → (new ++ rest).head? = some '/' := by
  intro _
  cases new with
  | nil => cases isNew
  | cons letter new => exact isNew

theorem renamed_absolute {prim name : PathText} (absolute : prim.head? = some '/') :
    (beforeLastSlash prim ++ '/' :: name).head? = some '/' := by
  obtain ⟨last, -, split⟩ := beforeLastSlash_spec (List.mem_of_mem_head? absolute)
  cases parent : beforeLastSlash prim with
  | nil => rfl
  | cons letter rest =>
      rw [split, parent] at absolute
      exact absolute

/-- Every text behind a slash is a path. -/
def PathGrammar.lax : PathGrammar where
  valid text := text.head? = some '/'
  accepts _ text := text.head? = some '/'
  isPrim text := text.head? = some '/' && text ≠ ['/'] && text.all nameLetter
  isIdentifier name := name ≠ [] && name.all nameLetter
  absolute prim isPrim := by
    simp only [Bool.and_eq_true, decide_eq_true_eq] at isPrim
    exact isPrim.1
  plain prim isPrim := by
    simpa [nameLetter] using (Bool.and_eq_true_iff.1 isPrim).2
  renamed prim name isPrim isIdentifier := by
    simp only [Bool.and_eq_true, decide_eq_true_eq, List.all_eq_true] at isPrim isIdentifier ⊢
    obtain ⟨⟨absolute, -⟩, letters⟩ := isPrim
    obtain ⟨last, -, split⟩ := beforeLastSlash_spec (List.mem_of_mem_head? absolute)
    refine ⟨⟨renamed_absolute absolute, ?_⟩, ?_⟩
    · intro same
      have length := congrArg List.length same
      have named := List.length_pos_iff.2 isIdentifier.1
      simp only [List.length_append, List.length_cons, List.length_nil] at length
      omega
    · intro letter member
      rcases List.mem_append.1 member with before | behind
      · exact letters letter (split ▸ List.mem_append_left _ before)
      · rcases List.mem_cons.1 behind with rfl | inside
        · rfl
        · exact isIdentifier.2 letter inside
  valid_replaced old new rest _ isNew _ valid := by
    simp only [Bool.and_eq_true, decide_eq_true_eq] at isNew valid ⊢
    exact head?_replaced isNew.1.1 valid
  accepts_replaced _ old new rest _ isNew _ accepted := by
    simp only [Bool.and_eq_true, decide_eq_true_eq] at isNew accepted ⊢
    exact head?_replaced isNew.1.1 accepted

namespace EmitterCaches

def world : ScenePrim .lax where
  text := "/World".toList
  isPrim := by decide

def door : ScenePrim .lax where
  text := "/World/Door".toList
  isPrim := by decide

def doorway : ScenePrim .lax where
  text := "/World/Doorway".toList
  isPrim := by decide

def gate : SceneName .lax where
  text := "Gate".toList
  isIdentifier := by decide

/-- A prim is purged beside one whose name it begins, which is renamed while a spec behind one of its
variants and one of its properties have entries. -/
def session : List (CacheAction .lax Nat) :=
  [.know world, .know door, .know doorway,
    .seed [(door.text, 1), (doorway.text, 2)] [("/World/Door.size".toList, 3)],
    .purge door true true false,
    .observe
      { byPrim := fun _ => .empty
        bySpec := SpecCache.select .empty
          (.ofEntries [((.prim, "/World/Doorway{look=red}Knob".toList), 4)])
        byText := fun _ => .empty }
      (by intro cache; cases cache <;> decide),
    .seed [(doorway.text, 5)] [("/World/Doorway.size".toList, 6)],
    .invalidateRenamePrim doorway (some gate) none]

theorem pathCaches_agree_session :
    (∃ final, Machine.run (step .lax) start session = some final) ∧
      Machine.StepsMeet (step .lax) (StepAgrees .lax) start session :=
  (pathCaches_agree .lax session).2 (by decide)

/-- The snapshot of a prim that was seeded and is not known outlives the deletion of its parent. -/
theorem not_stepAgrees_seeded : ¬ Machine.StepsMeet (step .lax) (StepAgrees .lax)
    (start : EmitterCaches Nat)
    [.seed [(world.text, 1), (door.text, 2)] [], .invalidateDeletePrim world] := by
  rintro ⟨-, later⟩
  obtain ⟨⟨after, stepped, purged⟩, -⟩ := later _ rfl
  have stays : (step .lax (start.seedPrimCache [(world.text, 1), (door.text, 2)] [])
      (.invalidateDeletePrim world)).map (fun after => (after.byPrim .primCache).get? door.text) =
        some (some 2) := by
    decide
  have gone := (purged.byPrim .primCache door.text).trans (if_pos (by decide))
  rw [stepped, Option.map_some, gone] at stays
  cases stays

end EmitterCaches

end UsdConnect
