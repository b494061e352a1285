import Codel00p.Gateway.SessionState
import Codel00p.Session.Replay

/-! What is seen of one session, and that keeping a turn touches one session only. -/

namespace Codel00p

open Program (exec Moves Triple Sees)

def SessionStore.Filed (store : SessionStore) : Prop :=
  ∀ sessionId found, store.find sessionId = some found → found.sessionId = sessionId

def SessionStore.view (sessionId : String) (store : SessionStore) :
    StorageScope × Option SessionMetadata × List (AppendLogEntry Json) :=
  (store.scope, store.find sessionId, store.entries sessionId)

theorem SessionStore.filed_empty (scope : StorageScope) : ({ scope } : SessionStore).Filed := by
  intro sessionId found present
  rw [SessionStore.find_empty] at present
  exact nomatch present

theorem SessionStore.Filed.put {store : SessionStore} (filed : store.Filed) (metadata : SessionMetadata) :
    (store.put metadata).Filed := by
  intro sessionId found present
  rw [SessionStore.find_put] at present
  split at present
  · next own =>
    obtain rfl := Option.some.inj present
    exact own.symm
  · exact filed sessionId found present

namespace SessionStore

variable {ρ : Type} {store other : SessionStore} {sessionId : String}

theorem find_of_view (same : store.view sessionId = other.view sessionId) :
    store.find sessionId = other.find sessionId := congrArg (·.2.1) same

theorem metadata_of_view (same : store.view sessionId = other.view sessionId) :
    store.metadata sessionId = other.metadata sessionId := by
  rw [metadata, metadata, find_of_view same]

theorem replay_of_view (values : RecordValues ρ) (same : store.view sessionId = other.view sessionId) :
    store.replay values sessionId = other.replay values sessionId := by
  have entries : store.entries sessionId = other.entries sessionId := congrArg (·.2.2) same
  rw [replay, replay, metadata_of_view same, entries]

theorem view_put (same : store.view sessionId = other.view sessionId) (metadata : SessionMetadata) :
    (store.put metadata).view sessionId = (other.put metadata).view sessionId := by
  have scope : store.scope = other.scope := congrArg (·.1) same
  have entries : store.entries sessionId = other.entries sessionId := congrArg (·.2.2) same
  have scopes : (store.put metadata).scope = (other.put metadata).scope := scope
  rw [view, view, find_put, find_put, entries_put, entries_put, find_of_view same, entries, scopes]

theorem appendRecord_of_view (values : RecordValues ρ) (record : ρ)
    (same : store.view sessionId = other.view sessionId) :
    (store.appendRecord values sessionId record).1 = (other.appendRecord values sessionId record).1 ∧
      (store.appendRecord values sessionId record).2.view sessionId =
        (other.appendRecord values sessionId record).2.view sessionId := by
  have scope : store.scope = other.scope := congrArg (·.1) same
  have entries : store.entries sessionId = other.entries sessionId := congrArg (·.2.2) same
  cases present : store.find sessionId with
  | none =>
    have absent : other.find sessionId = none := (find_of_view same).symm.trans present
    rw [appendRecord_missing _ present, appendRecord_missing _ absent]
    exact ⟨rfl, same⟩
  | some found =>
    have there : other.find sessionId = some found := (find_of_view same).symm.trans present
    -- The entry is numbered by the log, which is the same.
    have entry : store.newEntry values sessionId record = other.newEntry values sessionId record := by
      unfold SessionStore.entries at entries
      unfold newEntry InMemoryStorage.appendedEntry
      rw [entries, scope]
    refine ⟨?_, ?_⟩
    · rw [appendRecord_fst _ present, appendRecord_fst _ there, entry]
    · have scopes : (store.appendRecord values sessionId record).2.scope =
          (other.appendRecord values sessionId record).2.scope := by
        rw [appendRecord, appendRecord]
        split <;> split <;> exact scope
      rw [view, view, find_appendRecord, find_appendRecord, entries_appendRecord _ present,
        entries_appendRecord _ there, find_of_view same, entries, entry, scopes]

end SessionStore

namespace Gateway

open SessionStore

variable (codec : SessionCodec) (sessionId : String)

theorem keep_sees {α ν : Type} {view : SessionStore → ν}
    {operation : SessionStore → Except SessionStoreError α × SessionStore}
    (seen : ∀ store other, view store = view other →
      (operation store).1 = (operation other).1 ∧ view (operation store).2 = view (operation other).2) :
    Sees view (keep codec operation) := by
  refine .bind (.perform seen) fun answer => ?_
  exact .bind (.ofExcept _) fun _ => .pure _

theorem appendRecords_sees (records : List SessionRecord) :
    Sees (view sessionId) (appendRecords codec sessionId records) := by
  induction records with
  | nil => exact .pure _
  | cons record records ih =>
    exact .bind (keep_sees codec fun _ _ same => appendRecord_of_view codec.values record same) fun _ => ih

theorem titleIfMissing_sees (title : Option String) :
    Sees (view sessionId) (titleIfMissing codec sessionId title) := by
  cases title with
  | none => exact .pure _
  | some title =>
    refine .bind (.reads fun _ _ same => metadata_of_view same) fun metadata => ?_
    split
    · exact .pure _
    · refine keep_sees codec fun store other same => ?_
      have found := metadata_of_view same
      unfold setSessionTitle SessionStore.update
      rw [found]
      split
      · exact ⟨rfl, same⟩
      · exact ⟨rfl, view_put same _⟩

theorem sessionId_turnMetadata (session : SessionState) (now : Nat) :
    (turnMetadata session now).sessionId = session.sessionId := by
  unfold turnMetadata
  split
  · exact SessionMetadata.sessionId_withTitle _ _
  · rfl

theorem persistTurnOutcome_sees (now : Nat) (session : SessionState) (events : List HarnessEvent) (start : Nat) :
    Sees (view session.sessionId) (persistTurnOutcome codec now session events start) := by
  refine .bind (.bind (.perform fun store other same => ?_) fun created => ?_) fun _ => ?_
  · have found := find_of_view same
    unfold createSession
    rw [sessionId_turnMetadata, found]
    split
    · exact ⟨rfl, same⟩
    · exact ⟨rfl, view_put same _⟩
  · split
    · exact .pure _
    · exact titleIfMissing_sees codec _ _
    · exact .throw _
  · unfold appendTurn
    split
    · exact .throw _
    · exact appendRecords_sees codec _ _

/-! ### Moves of the session store -/

section

variable {relation : SessionStore → SessionStore → Prop} [Std.Refl relation] [IsTrans SessionStore relation]

theorem keep_moves {α : Type} {operation : SessionStore → Except SessionStoreError α × SessionStore}
    (moved : ∀ store, relation store (operation store).2) : Moves relation (keep codec operation) :=
  .bind (.perform moved) fun _ => .bind (.ofExcept _) fun _ => .pure _

theorem appendRecords_moves
    (appended : ∀ record store, relation store (store.appendRecord codec.values sessionId record).2)
    (records : List SessionRecord) : Moves relation (appendRecords codec sessionId records) := by
  induction records with
  | nil => exact .pure _
  | cons record records ih => exact .bind (keep_moves codec (appended record)) fun _ => ih

theorem titleIfMissing_moves (titled : ∀ title store, relation store (store.setSessionTitle sessionId title).2)
    (title : Option String) : Moves relation (titleIfMissing codec sessionId title) := by
  cases title with
  | none => exact .pure _
  | some title => exact .bind (.reads _) fun metadata => .ite (.pure _) (keep_moves codec (titled title))

end

/-! ### Other sessions -/

/-- Only one session has changed, and metadata is still filed under its own id. -/
def Spares (target : String) (store reached : SessionStore) : Prop :=
  store.Filed → reached.Filed ∧ ∀ sessionId, sessionId ≠ target → reached.view sessionId = store.view sessionId

instance (target : String) : Std.Refl (Spares target) where
  refl _ filed := ⟨filed, fun _ _ => rfl⟩

instance (target : String) : IsTrans SessionStore (Spares target) where
  trans := by
    intro store between reached first second filed
    obtain ⟨middle, led⟩ := first filed
    obtain ⟨last, goes⟩ := second middle
    exact ⟨last, fun sessionId apart => (goes sessionId apart).trans (led sessionId apart)⟩

theorem put_spares (store : SessionStore) (metadata : SessionMetadata) :
    Spares metadata.sessionId store (store.put metadata) := by
  intro filed
  refine ⟨filed.put metadata, fun other apart => ?_⟩
  rw [view, find_put, if_neg apart, entries_put]
  rfl

theorem appendRecord_spares (record : SessionRecord) (store : SessionStore) :
    Spares sessionId store (store.appendRecord codec.values sessionId record).2 := by
  intro filed
  refine ⟨fun other found present => filed other found ?_, fun other apart => ?_⟩
  · rwa [find_appendRecord] at present
  · cases present : store.find sessionId with
    | none =>
      rw [appendRecord_missing _ present]
    | some found =>
      have scopes : (store.appendRecord codec.values sessionId record).2.scope = store.scope := by
        rw [appendRecord]
        split <;> rfl
      rw [view, find_appendRecord, entries_appendRecord _ present, if_neg apart, List.append_nil, scopes]
      rfl

theorem setSessionTitle_spares (title : String) (store : SessionStore) :
    Spares sessionId store (store.setSessionTitle sessionId title).2 := by
  intro filed
  unfold setSessionTitle SessionStore.update SessionStore.metadata
  cases present : store.find sessionId with
  | none => exact ⟨filed, fun _ _ => rfl⟩
  | some found =>
    -- The metadata is put back where it was found.
    obtain rfl : found.sessionId = sessionId := filed sessionId found present
    have spares := put_spares store (found.withTitle title) filed
    rw [SessionMetadata.sessionId_withTitle] at spares
    exact spares

theorem persistTurnOutcome_spares (now : Nat) (session : SessionState) (events : List HarnessEvent) (start : Nat) :
    Moves (Spares session.sessionId) (persistTurnOutcome codec now session events start) := by
  refine .bind (.bind (.perform fun store => ?_) fun created => ?_) fun _ => ?_
  · unfold createSession
    split
    · exact Std.Refl.refl _
    · have spares := put_spares store (turnMetadata session now)
      rw [sessionId_turnMetadata] at spares
      exact spares
  · split
    · exact .pure _
    · exact titleIfMissing_moves codec _ (setSessionTitle_spares _) _
    · exact .throw _
  · exact .ite (.throw _) (appendRecords_moves codec _ (appendRecord_spares codec _) _)

/-! ### The session of a turn -/

def Lasts (target : String) (store reached : SessionStore) : Prop :=
  (store.find target).isSome = true → (reached.find target).isSome = true

instance (target : String) : Std.Refl (Lasts target) where
  refl _ present := present

instance (target : String) : IsTrans SessionStore (Lasts target) where
  trans _ _ _ first second present := second (first present)

theorem put_lasts (store : SessionStore) (metadata : SessionMetadata) :
    Lasts sessionId store (store.put metadata) := by
  intro present
  rw [find_put]
  split
  · rfl
  · exact present

theorem setSessionTitle_lasts (title : String) (store : SessionStore) :
    Lasts sessionId store (store.setSessionTitle sessionId title).2 := by
  unfold setSessionTitle SessionStore.update
  split
  · exact Std.Refl.refl _
  · exact put_lasts _ store _

theorem appendRecord_lasts (record : SessionRecord) (store : SessionStore) :
    Lasts sessionId store (store.appendRecord codec.values sessionId record).2 := by
  intro present
  rwa [find_appendRecord]

theorem find_persistTurnOutcome (now : Nat) (session : SessionState) (events : List HarnessEvent) (start : Nat)
    (store : SessionStore) : ((exec (persistTurnOutcome codec now session events start) store).2.find
      session.sessionId).isSome = true := by
  let there (store : SessionStore) : Prop := (store.find session.sessionId).isSome = true
  have created : Triple (fun _ => True)
      (Program.perform (·.createSession (turnMetadata session now)) : KeepM _) (fun _ => there) fun _ => there := by
    refine .perform fun store _ => ?_
    unfold createSession
    rw [sessionId_turnMetadata]
    split
    · next found => simp [there, found]
    · simp [there, find_put, sessionId_turnMetadata]
  -- All that follows leaves the session where it is.
  have opened : Triple (fun _ => True) (openTurnSession codec now session) (fun _ => there)
      fun _ => there := by
    refine .bind created fun answer => ?_
    split
    · exact .pure _ fun _ holds => holds
    · exact .of_moves (titleIfMissing_moves codec _ (setSessionTitle_lasts _) _) fun _ _ lasts => lasts
    · exact .throw _ fun _ holds => holds
  have appends : Moves (Lasts session.sessionId) (appendTurn codec session events start) :=
    .ite (.throw _) (appendRecords_moves codec _ (appendRecord_lasts codec _) _)
  have kept : Triple (fun _ => True) (persistTurnOutcome codec now session events start)
      (fun _ => there) fun _ => there := .bind opened fun _ => .of_moves appends fun _ _ lasts => lasts
  have reached := kept.run store trivial
  generalize exec (persistTurnOutcome codec now session events start) store = ran at reached ⊢
  rcases ran with ⟨_ | _, _⟩ <;> exact reached

end Gateway

end Codel00p
