/-
Purpose: A snapshot that is accepted as current has the state of the server, as long as its token
  was read without reservations and no earlier token can come back.
Trusted boundary: none
Main exports: SnapshotServer.TokensAdvance, SnapshotServer.UploadsSeen
-/
import UsdConnect.Server.Snapshots
import UsdConnect.Lib.Machine

namespace UsdConnect

variable {Scene : Type}

namespace SnapshotToken

theorem before_trans {first second third : SnapshotToken} (left : first.before second = true)
    (right : second.before third = true) : first.before third = true := by
  unfold before at *
  simp only [Bool.or_eq_true, Bool.and_eq_true, decide_eq_true_eq] at *
  omega

theorem before_irrefl (token : SnapshotToken) : token.before token = false := by
  unfold before
  simp

end SnapshotToken

namespace SnapshotServer

variable {server next : SnapshotServer Scene}

/-- Every upload that was accepted as current was made from the state of the server. -/
def UploadsSeen (server : SnapshotServer Scene) : Prop :=
  ∀ upload ∈ server.uploads, upload.1 = upload.2

/-- The token of the stored history. -/
def durableToken (server : SnapshotServer Scene) : SnapshotToken :=
  { epoch := server.snapshotEpoch, seq := server.storedSeq }

/-- A token is read while no commit holds a reservation; an upload is judged when the scene has not
changed since the token advanced; and a server restarts only when every snapshot handed out so far is
older than the token it restarts with, or has that token and the restored state. -/
def TokensAdvance (server : SnapshotServer Scene) : SnapshotAction Scene → Prop
  | .openToken _ => server.nextSeq = server.storedSeq + 1
  | .upload _ _ => server.unannounced = false
  | .restart restored =>
      ∀ snapshot ∈ server.exported,
        snapshot.token.before ⟨0, server.storedSeq⟩ = true ∨
          snapshot.token = ⟨0, server.storedSeq⟩ ∧ snapshot.content = restored
  | _ => True

/-! ### The invariant -/

/-- A snapshot is of an earlier token, or of this one and then of the announced scene. -/
def Dated (server : SnapshotServer Scene) (snapshot : Snapshot Scene) : Prop :=
  snapshot.token.before server.durableToken = true ∨
    snapshot.token = server.durableToken ∧
      (server.unannounced = false → snapshot.content = server.scene)

/-- A token that an export has read is not ahead of the stored history. -/
def Reached (server : SnapshotServer Scene) (token : SnapshotToken) : Prop :=
  token.before server.durableToken = true ∨ token = server.durableToken

/-- What a virtual file holds is dated. -/
structure FileDated (server : SnapshotServer Scene) (file : VirtualFile Scene) : Prop where
  cached : ∀ snapshot, file.cached = some snapshot → server.Dated snapshot
  flattened : ∀ snapshot, file.phase = .flattened snapshot → server.Dated snapshot
  reading : ∀ token, file.phase = .reading token → server.Reached token

/-- Reservations of the commit in progress start behind the stored history. -/
def Reserved (server : SnapshotServer Scene) : Prop :=
  match server.commit with
  | none => server.nextSeq = server.storedSeq + 1
  | some first => first = server.storedSeq + 1 ∧ first ≤ server.nextSeq

structure Sound (server : SnapshotServer Scene) : Prop where
  reserved : server.Reserved
  exported : ∀ snapshot ∈ server.exported, server.Dated snapshot
  files : ∀ file ∈ server.files, server.FileDated file
  uploads : server.UploadsSeen

/-! ### Carrying the dates over a step -/

/-- Everything that was dated stays dated. -/
structure KeepsDates (server next : SnapshotServer Scene) : Prop where
  dated : ∀ snapshot, server.Dated snapshot → next.Dated snapshot
  reached : ∀ token, server.Reached token → next.Reached token

/-- The token advances: whatever was handed out before is older. -/
theorem KeepsDates.of_advance (advance : server.durableToken.before next.durableToken = true) :
    KeepsDates server next := by
  have older : ∀ token, server.Reached token → token.before next.durableToken = true := by
    intro token reached
    rcases reached with before | same
    · exact SnapshotToken.before_trans before advance
    · rw [same]
      exact advance
  constructor
  · intro snapshot dated
    left
    apply older
    rcases dated with before | ⟨same, _⟩
    · exact Or.inl before
    · exact Or.inr same
  · exact fun token reached => Or.inl (older token reached)

/-- The token stays, and the scene stays or is not announced. -/
theorem KeepsDates.of_same (token : next.durableToken = server.durableToken)
    (scene : next.unannounced = false → server.unannounced = false ∧ next.scene = server.scene) :
    KeepsDates server next := by
  constructor
  · intro snapshot dated
    rcases dated with before | ⟨same, content⟩
    · left
      rw [token]
      exact before
    · right
      refine ⟨same.trans token.symm, ?_⟩
      intro announced
      obtain ⟨announcedBefore, kept⟩ := scene announced
      rw [kept]
      exact content announcedBefore
  · intro other reached
    unfold Reached
    rw [token]
    exact reached

/-- A step that leaves exports and uploads alone. -/
theorem Sound.of_keeps (sound : server.Sound) (keeps : KeepsDates server next)
    (reserved : next.Reserved) (exported : next.exported = server.exported)
    (files : next.files = server.files) (uploads : next.uploads = server.uploads) : next.Sound := by
  constructor
  · exact reserved
  · rw [exported]
    exact fun snapshot member => keeps.dated snapshot (sound.exported snapshot member)
  · rw [files]
    intro file member
    have dated := sound.files file member
    exact ⟨fun snapshot held => keeps.dated snapshot (dated.cached snapshot held),
      fun snapshot held => keeps.dated snapshot (dated.flattened snapshot held),
      fun token held => keeps.reached token (dated.reading token held)⟩
  · unfold UploadsSeen
    rw [uploads]
    exact sound.uploads

theorem before_of_epoch {token other : SnapshotToken} (less : token.epoch < other.epoch) :
    token.before other = true := by
  unfold SnapshotToken.before
  simp [less]

/-! ### Commits and rewrites -/

theorem finishCommit_sound {first : Nat} (after : Scene) (sound : server.Sound)
    (committing : server.commit = some first) : (server.finishCommit first after).Sound := by
  have reserved := sound.reserved
  unfold Reserved at reserved
  rw [committing] at reserved
  obtain ⟨start, above⟩ := reserved
  unfold finishCommit
  split
  · next empty =>
      refine sound.of_keeps (.of_same rfl fun announced => ⟨announced, rfl⟩) ?_ rfl rfl rfl
      exact empty.trans start
  · next written =>
      refine sound.of_keeps (.of_advance ?_) ?_ rfl rfl rfl
      · have later : server.storedSeq < server.nextSeq - 1 := by omega
        unfold SnapshotToken.before durableToken
        simp [later]
      · change server.nextSeq = server.nextSeq - 1 + 1
        omega

theorem failCommit_sound {first : Nat} (sound : server.Sound)
    (committing : server.commit = some first) : (server.failCommit first).Sound := by
  have reserved := sound.reserved
  unfold Reserved at reserved
  rw [committing] at reserved
  refine sound.of_keeps (.of_same rfl fun announced => ⟨announced, rfl⟩) ?_ rfl rfl rfl
  exact reserved.1

theorem rewrite_sound (count : Nat) (after : Scene) (sound : server.Sound)
    (idle : server.commit = none) : (server.rewrite count after).Sound := by
  refine sound.of_keeps (.of_advance ?_) ?_ rfl rfl rfl
  · exact before_of_epoch (Nat.lt_succ_self _)
  · unfold Reserved rewrite
    dsimp only
    rw [idle]

theorem window_idle (window : server.windowOpen = true) : server.commit = none := by
  unfold windowOpen at window
  exact Option.isNone_iff_eq_none.1 (Bool.and_eq_true_iff.1 window).1

/-- Between commits the server's token is that of the stored history. -/
theorem Sound.token_eq (sound : server.Sound) (idle : server.commit = none) :
    server.token = server.durableToken := by
  have reserved := sound.reserved
  unfold Reserved at reserved
  rw [idle] at reserved
  unfold token durableToken
  rw [reserved, Nat.add_sub_cancel]

theorem upload_sound {snapshot : Snapshot Scene} (replacement : Option (Scene × Nat))
    (sound : server.Sound) (window : server.windowOpen = true)
    (announced : server.unannounced = false) (member : snapshot ∈ server.exported) :
    (server.upload snapshot replacement).Sound := by
  have idle := window_idle window
  unfold upload
  split
  · exact sound
  · next accepted =>
      have current : snapshot.token = server.durableToken :=
        (not_not.1 accepted).trans (sound.token_eq idle)
      have seen : snapshot.content = server.scene := by
        rcases sound.exported snapshot member with before | ⟨_, content⟩
        · rw [current, SnapshotToken.before_irrefl] at before
          cases before
        · exact content announced
      have recorded : ({ server with
          uploads := server.uploads ++ [(snapshot.content, server.scene)] } :
            SnapshotServer Scene).Sound := by
        constructor
        · exact sound.reserved
        · exact sound.exported
        · exact fun file held => ⟨(sound.files file held).cached,
            (sound.files file held).flattened, (sound.files file held).reading⟩
        · intro upload uploaded
          rcases List.mem_append.1 uploaded with old | new
          · exact sound.uploads upload old
          · cases List.mem_singleton.1 new
            exact seen
      cases replacement with
      | none => exact recorded
      | some replacement => exact rewrite_sound _ _ recorded idle

theorem restart_sound {restored : Scene} (sound : server.Sound)
    (advance : server.TokensAdvance (.restart restored)) : (server.restart restored).Sound := by
  constructor
  · rfl
  · intro snapshot member
    rcases advance snapshot member with before | ⟨same, content⟩
    · exact Or.inl before
    · exact Or.inr ⟨same, fun _ => content⟩
  · intro file member
    obtain ⟨_, _, same⟩ := List.mem_map.1 member
    rw [← same]
    exact ⟨nofun, nofun, nofun⟩
  · exact sound.uploads

/-! ### Exports -/

theorem setFile_sound {index : Nat} {file : VirtualFile Scene} (sound : server.Sound)
    (dated : server.FileDated file) : (server.setFile index file).Sound := by
  constructor
  · exact sound.reserved
  · exact sound.exported
  · intro other member
    rcases List.mem_or_eq_of_mem_set member with old | new
    · have before := sound.files other old
      exact ⟨before.cached, before.flattened, before.reading⟩
    · rw [new]
      exact ⟨dated.cached, dated.flattened, dated.reading⟩
  · exact sound.uploads

theorem export_sound {snapshot : Snapshot Scene} (sound : server.Sound)
    (dated : server.Dated snapshot) :
    ({ server with exported := server.exported ++ [snapshot] } : SnapshotServer Scene).Sound := by
  constructor
  · exact sound.reserved
  · intro other member
    rcases List.mem_append.1 member with old | new
    · exact sound.exported other old
    · rw [List.mem_singleton.1 new]
      exact dated
  · exact fun file member => ⟨(sound.files file member).cached,
      (sound.files file member).flattened, (sound.files file member).reading⟩
  · exact sound.uploads

theorem exportStep_sound {index : Nat} {file : VirtualFile Scene} {action : SnapshotAction Scene}
    (sound : server.Sound) (member : file ∈ server.files) (advance : server.TokensAdvance action)
    (stepped : server.exportStep index file action = some next) : next.Sound := by
  have dated := sound.files file member
  have opened : server.FileDated { file with phase := .opening } :=
    ⟨dated.cached, nofun, nofun⟩
  cases action with
  | read _ =>
      dsimp only [exportStep] at stepped
      split at stepped
      · cases stepped
        unfold readFile
        split
        · next snapshot held =>
            split
            · exact export_sound sound (dated.cached snapshot held)
            · exact setFile_sound sound opened
        · exact setFile_sound sound opened
      · cases stepped
  | openToken _ =>
      dsimp only [exportStep] at stepped
      split at stepped
      · cases stepped
        apply setFile_sound sound
        refine ⟨dated.cached, nofun, ?_⟩
        intro token read
        cases read
        right
        unfold SnapshotServer.token durableToken
        rw [show server.nextSeq = server.storedSeq + 1 from advance, Nat.add_sub_cancel]
      · cases stepped
  | flatten _ =>
      dsimp only [exportStep] at stepped
      split at stepped
      · next token reading =>
          cases stepped
          apply setFile_sound sound
          refine ⟨dated.cached, ?_, nofun⟩
          intro snapshot flattened
          cases flattened
          rcases dated.reading token reading with before | same
          · exact Or.inl before
          · exact Or.inr ⟨same, fun _ => rfl⟩
      · cases stepped
  | store _ =>
      dsimp only [exportStep] at stepped
      split at stepped
      · next snapshot flattened =>
          cases stepped
          have held := dated.flattened snapshot flattened
          have cached : server.FileDated { cached := some snapshot } := by
            refine ⟨?_, nofun, nofun⟩
            intro other same
            cases same
            exact held
          exact export_sound (setFile_sound sound cached) held
      · cases stepped
  | _ => cases stepped

/-! ### Runs -/

theorem Sound.step {action : SnapshotAction Scene} (sound : server.Sound)
    (advance : server.TokensAdvance action) (stepped : server.step action = some next) :
    next.Sound := by
  have reserved := sound.reserved
  unfold Reserved at reserved
  cases action with
  | begin =>
      dsimp only [SnapshotServer.step] at stepped
      split at stepped
      · next idle =>
          cases stepped
          rw [idle] at reserved
          refine sound.of_keeps (.of_same rfl fun announced => ⟨announced, rfl⟩) ?_ rfl rfl rfl
          exact ⟨reserved, Nat.le_refl _⟩
      · cases stepped
  | encode =>
      obtain ⟨first, committing, same⟩ := Option.map_eq_some_iff.1 stepped
      cases same
      rw [committing] at reserved
      refine sound.of_keeps (.of_same rfl fun announced => ⟨announced, rfl⟩) ?_ rfl rfl rfl
      unfold Reserved
      dsimp only
      rw [committing]
      exact ⟨reserved.1, Nat.le_succ_of_le reserved.2⟩
  | finish after =>
      obtain ⟨first, committing, same⟩ := Option.map_eq_some_iff.1 stepped
      cases same
      exact finishCommit_sound after sound committing
  | fail =>
      obtain ⟨first, committing, same⟩ := Option.map_eq_some_iff.1 stepped
      cases same
      exact failCommit_sound sound committing
  | changeStack after =>
      cases stepped
      exact sound.of_keeps (.of_same rfl (by simp)) sound.reserved rfl rfl rfl
  | bump =>
      obtain ⟨_, same⟩ := Option.ite_none_left_eq_some.1 stepped
      cases same
      exact sound.of_keeps (.of_advance (before_of_epoch (Nat.lt_succ_self _))) sound.reserved rfl rfl
        rfl
  | reactivate after =>
      cases stepped
      exact sound.of_keeps (.of_same rfl (by simp)) sound.reserved rfl rfl rfl
  | compact count =>
      obtain ⟨window, same⟩ := Option.ite_none_right_eq_some.1 stepped
      cases same
      exact rewrite_sound count server.scene sound (window_idle window)
  | purge after =>
      obtain ⟨window, same⟩ := Option.ite_none_right_eq_some.1 stepped
      cases same
      exact rewrite_sound 0 after sound (window_idle window)
  | upload index replacement =>
      obtain ⟨window, stepped⟩ := Option.ite_none_right_eq_some.1 stepped
      obtain ⟨snapshot, found, same⟩ := Option.map_eq_some_iff.1 stepped
      cases same
      exact upload_sound replacement sound window advance (List.mem_of_getElem? found)
  | restart restored =>
      cases stepped
      exact restart_sound sound advance
  | read index =>
      obtain ⟨file, found, stepped⟩ := Option.bind_eq_some_iff.1 stepped
      exact exportStep_sound sound (List.mem_of_getElem? found) advance stepped
  | openToken index =>
      obtain ⟨file, found, stepped⟩ := Option.bind_eq_some_iff.1 stepped
      exact exportStep_sound sound (List.mem_of_getElem? found) advance stepped
  | flatten index =>
      obtain ⟨file, found, stepped⟩ := Option.bind_eq_some_iff.1 stepped
      exact exportStep_sound sound (List.mem_of_getElem? found) advance stepped
  | store index =>
      obtain ⟨file, found, stepped⟩ := Option.bind_eq_some_iff.1 stepped
      exact exportStep_sound sound (List.mem_of_getElem? found) advance stepped

/-- A server that has just been started, with its virtual files. -/
def start (scene : Scene) (storedSeq files : Nat) : SnapshotServer Scene where
  scene := scene
  storedSeq := storedSeq
  nextSeq := storedSeq + 1
  files := List.replicate files {}

theorem start_sound (scene : Scene) (storedSeq files : Nat) : (start scene storedSeq files).Sound where
  reserved := rfl
  exported := nofun
  files := by
    intro file member
    rw [List.eq_of_mem_replicate member]
    exact ⟨nofun, nofun, nofun⟩
  uploads := nofun

/-- In every run whose tokens advance with the scene, no upload is accepted over a state that its
snapshot does not have. -/
theorem uploadsSeen_of_tokensAdvance (scene : Scene) (storedSeq files : Nat)
    (actions : List (SnapshotAction Scene)) (final : SnapshotServer Scene)
    (advance : Machine.StepsMeet step TokensAdvance (start scene storedSeq files) actions)
    (ran : Machine.run step (start scene storedSeq files) actions = some final) :
    final.UploadsSeen := by
  have preserved : ∀ (server : SnapshotServer Scene) (action : SnapshotAction Scene)
      (next : SnapshotServer Scene), server.Sound → server.TokensAdvance action →
      server.step action = some next → next.Sound :=
    fun _ _ _ sound meets stepped => sound.step meets stepped
  exact (Machine.run_preserves preserved actions _ final (start_sound scene storedSeq files) advance
    ran).uploads

/-- A file is exported after a commit, served again from its cache, and uploaded. -/
theorem uploadsSeen_of_tokensAdvance_saved :
    ∃ final, Machine.run step (start 0 0 1)
        [.begin, .encode, .finish 1, .read 0, .openToken 0, .flatten 0, .store 0, .read 0,
          .upload 1 (some (2, 1))] = some final ∧
      final.UploadsSeen := by
  refine ⟨_, rfl, uploadsSeen_of_tokensAdvance 0 0 1
    [.begin, .encode, .finish 1, .read 0, .openToken 0, .flatten 0, .store 0, .read 0,
      .upload 1 (some (2, 1))] _ ?_ rfl⟩
  refine Machine.stepsMeet_cons trivial rfl ?_
  refine Machine.stepsMeet_cons trivial rfl ?_
  refine Machine.stepsMeet_cons trivial rfl ?_
  refine Machine.stepsMeet_cons trivial rfl ?_
  refine Machine.stepsMeet_cons rfl rfl ?_
  refine Machine.stepsMeet_cons trivial rfl ?_
  refine Machine.stepsMeet_cons trivial rfl ?_
  refine Machine.stepsMeet_cons trivial rfl ?_
  exact Machine.stepsMeet_cons rfl rfl trivial

/-- A file is exported between the reservation of a commit and its edits, and uploaded over them. -/
theorem not_uploadsSeen_reserved :
    ∃ final, Machine.run step (start 0 0 1)
        [.begin, .encode, .read 0, .openToken 0, .flatten 0, .store 0, .finish 1,
          .upload 0 (some (2, 1))] = some final ∧
      ¬ final.UploadsSeen := by
  refine ⟨_, rfl, ?_⟩
  intro seen
  have overwritten := seen (0, 1) (by decide)
  cases overwritten

end SnapshotServer

end UsdConnect
