import OpenMeet.MeetingRecorder
import OpenMeet.RequestEffects

/-!
Runs of requests together with what the recorder is told of meetings. In every
state they reach, each call has a room of its own.
-/
namespace OpenMeet.SocialRuns

open KeyedMap Messages Accounts SocialTables SocialRequests RequestEffects MeetingRecorder

/-- A request of a user, or a join, a leave or a restart the recorder is told of. -/
inductive SocialEvent
  | request (now : Timestamp) (userId : Uuid) (request : SocialRequest)
  | meeting (fails : RecorderQuery → Bool) (event : MeetingEvent)

def applyEvent (env : Environment) (s : Recorder) : SocialEvent → Recorder
  | .request now userId request => { s with db := (handle env s.db now userId request).db }
  | .meeting fails event => record fails s event

def runEvents (env : Environment) (s : Recorder) (events : List SocialEvent) : Recorder :=
  events.foldl (applyEvent env) s

def emptyRecorder (accounts : Accounts.Database) : Recorder := ⟨emptyDatabase accounts, ∅⟩

/-- The room of a call is its own. -/
def UniqueRooms (db : SocialDatabase) : Prop :=
  ∀ id id' call call', db.calls.lookup id = some call → db.calls.lookup id' = some call' →
    call.sfuRoomId = call'.sfuRoomId → id = id'

section Runs

variable {env : Environment} {db after : SocialDatabase}

theorem uniqueRooms_of_callsGrow (h : CallsGrow db after) (hdb : UniqueRooms db) :
    UniqueRooms after := by
  obtain ⟨callId, hgrow⟩ := h
  intro id id' call call' hcall hcall' hroom
  rcases hgrow id call hcall with ⟨earlier, hearlier, hcarries⟩ | ⟨hid, hfresh⟩
  · rcases hgrow id' call' hcall' with ⟨earlier', hearlier', hcarries'⟩ | ⟨-, hfresh'⟩
    · refine hdb id id' earlier earlier' hearlier hearlier' ?_
      rw [← hcarries.sfuRoomId, ← hcarries'.sfuRoomId, hroom]
    · exact absurd (hcarries.sfuRoomId.symm.trans hroom) (hfresh' id earlier hearlier)
  · rcases hgrow id' call' hcall' with ⟨earlier', hearlier', hcarries'⟩ | ⟨hid', -⟩
    · exact absurd (hcarries'.sfuRoomId.symm.trans hroom.symm) (hfresh id' earlier' hearlier')
    · rw [hid, hid']

theorem applyEvent_uniqueRooms {s : Recorder} (h : UniqueRooms s.db) (event : SocialEvent) :
    UniqueRooms (applyEvent env s event).db := by
  cases event with
  | request now userId request => exact uniqueRooms_of_callsGrow (handle_callsGrow env _ _ _ _) h
  | meeting fails event =>
    have hcalls := carriesCalls_of_eq (record_onlyMeetings fails s event).calls
    exact uniqueRooms_of_callsGrow hcalls.grow h

theorem runEvents_uniqueRooms {s : Recorder} (h : UniqueRooms s.db) (events : List SocialEvent) :
    UniqueRooms (runEvents env s events).db := by
  induction events generalizing s with
  | nil => exact h
  | cons event rest ih => exact ih (applyEvent_uniqueRooms h event)

theorem emptyRecorder_uniqueRooms (accounts : Accounts.Database) :
    UniqueRooms (emptyRecorder accounts).db := by
  intro id id' call call' hcall
  simp [emptyRecorder, emptyDatabase] at hcall

end Runs

end OpenMeet.SocialRuns
