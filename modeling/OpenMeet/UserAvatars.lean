import Mathlib.Data.Finset.Insert
import OpenMeet.KeyedMap
import OpenMeet.Messages
import OpenMeet.TransitionSystem

/-!
The avatar of a user, in the object storage and in the user's row. An upload
reads the key in the row, stores an object and its thumbnail under a new key,
writes the new key over whatever is in the row by then, and deletes the objects
of the key it has read. A removal clears the row only if it still holds the key
it has read. So an upload that writes over a key it has not read leaves the
objects of that key behind. A request runs to its end or fails in a query; one
that is dropped between two of its steps is left out.
-/
namespace OpenMeet.UserAvatars

open KeyedMap Messages TransitionSystem

/-- avatars/{user_id}/{id}.{extension} -/
structure AvatarKey where
  id : Uuid
  extension : String
  deriving DecidableEq

/-- An object under the user's prefix, the avatar itself or its thumbnail. -/
inductive StorageObject
  | original (key : AvatarKey)
  | thumbnail (key : AvatarKey)
  deriving DecidableEq

def StorageObject.key : StorageObject → AvatarKey
  | .original key | .thumbnail key => key

/-- In the order in which they are stored and deleted. -/
def AvatarKey.objects (key : AvatarKey) : List StorageObject := [.original key, .thumbnail key]

/-- Where a request is; every state is an await. -/
inductive Stage
  | receiving
  | storingOriginal (key : AvatarKey) (previous : Option AvatarKey)
  | storingThumbnail (key : AvatarKey) (previous : Option AvatarKey)
  | updating (key : AvatarKey) (previous : Option AvatarKey)
  | removing
  | clearing (avatarKey : AvatarKey)
  | deleting (objects : List StorageObject)
  deriving DecidableEq

abbrev TaskId := Nat

structure Service where
  avatarKey : Option AvatarKey
  storage : Finset StorageObject
  tasks : Map TaskId Stage
  drawn : Finset Uuid

inductive Action
  | upload (task : TaskId)
  | remove (task : TaskId)
  | read (task : TaskId) (id : Uuid) (extension : String)
  | store (task : TaskId)
  /-- The update of the row, which may fail. -/
  | update (task : TaskId) (committed : Bool)
  | find (task : TaskId)
  | clear (task : TaskId)
  | delete (task : TaskId)
  /-- A request ends early: a bad upload, or a failure of the database. -/
  | abandon (task : TaskId)
  deriving DecidableEq

namespace Service

variable (s : Service) (task : TaskId)

@[simp] def setTask (stage : Stage) : Service := { s with tasks := s.tasks.insert task stage }

@[simp] def endTask : Service := { s with tasks := s.tasks.erase task }

/-- Go on to delete objects, or end. -/
def cleanUp (objects : List StorageObject) : Service :=
  if objects = [] then s.endTask task else s.setTask task (.deleting objects)

end Service

section Steps

variable (s : Service) (task : TaskId)

def start (stage : Stage) : Option Service :=
  if task ∈ s.tasks then none else some (s.setTask task stage)

/-- The upload is parsed; the key in the row is read and a new one drawn. -/
def read (id : Uuid) (extension : String) : Option Service :=
  match s.tasks.lookup task with
  | some .receiving =>
    if id ∈ s.drawn then none
    else some ({ s with drawn := insert id s.drawn }.setTask task
      (.storingOriginal ⟨id, extension⟩ s.avatarKey))
  | _ => none

def store : Option Service :=
  match s.tasks.lookup task with
  | some (.storingOriginal key previous) =>
    some ({ s with storage := insert (StorageObject.original key) s.storage }.setTask task
      (.storingThumbnail key previous))
  | some (.storingThumbnail key previous) =>
    some ({ s with storage := insert (StorageObject.thumbnail key) s.storage }.setTask task
      (.updating key previous))
  | _ => none

/-- The new key is written whatever the row holds; if that fails its objects are deleted. -/
def update (committed : Bool) : Option Service :=
  match s.tasks.lookup task with
  | some (.updating key previous) =>
    if committed then
      some ({ s with avatarKey := some key }.cleanUp task
        ((previous.filter (· ≠ key)).toList.flatMap AvatarKey.objects))
    else some (s.cleanUp task key.objects)
  | _ => none

def find : Option Service :=
  match s.tasks.lookup task with
  | some .removing =>
    match s.avatarKey with
    | none => some (s.endTask task)
    | some avatarKey => some (s.setTask task (.clearing avatarKey))
  | _ => none

/-- The row is cleared if it still holds the key. -/
def clear : Option Service :=
  match s.tasks.lookup task with
  | some (.clearing avatarKey) =>
    if s.avatarKey = some avatarKey then
      some ({ s with avatarKey := none }.cleanUp task avatarKey.objects)
    else some (s.endTask task)
  | _ => none

def delete : Option Service :=
  match s.tasks.lookup task with
  | some (.deleting (object :: rest)) =>
    some ({ s with storage := s.storage.erase object }.cleanUp task rest)
  | _ => none

def abandon : Option Service :=
  match s.tasks.lookup task with
  | some .receiving | some (.storingOriginal _ _) | some .removing | some (.clearing _) =>
    some (s.endTask task)
  | _ => none

def step : Action → Option Service
  | .upload task => start s task .receiving
  | .remove task => start s task .removing
  | .read task id extension => read s task id extension
  | .store task => store s task
  | .update task committed => update s task committed
  | .find task => find s task
  | .clear task => clear s task
  | .delete task => delete s task
  | .abandon task => abandon s task

end Steps

def objectsOf (avatarKey : Option AvatarKey) : List StorageObject :=
  avatarKey.toList.flatMap AvatarKey.objects

/-- The requests of one user who has an avatar or none. -/
def avatarRequests (avatarKey : Option AvatarKey) : System Service Action where
  init :=
    { avatarKey := avatarKey
      storage := (objectsOf avatarKey).toFinset
      tasks := ∅
      drawn := (avatarKey.toList.map (·.id)).toFinset }
  step := step

/-! ## What the requests have in their care -/

/-- The key an upload has drawn and not yet written. -/
def Stage.own : Stage → Option AvatarKey
  | .storingOriginal key _ | .storingThumbnail key _ | .updating key _ => some key
  | _ => none

/-- The objects a request has stored and not yet handed over. -/
def Stage.held : Stage → List StorageObject
  | .storingThumbnail key _ => [.original key]
  | .updating key _ => key.objects
  | _ => []

/-- The objects a request is about to delete. -/
def Stage.doomed : Stage → List StorageObject
  | .deleting objects => objects
  | _ => []

/-- The keys a request has read or written. -/
def Stage.known : Stage → List AvatarKey
  | .storingOriginal _ previous | .storingThumbnail _ previous | .updating _ previous =>
    previous.toList
  | .clearing avatarKey => [avatarKey]
  | .deleting objects => objects.map (·.key)
  | _ => []

def Stage.care (stage : Stage) : List StorageObject := stage.held ++ stage.doomed

/-- What holds of a request against the row, the storage and the ids drawn so far. -/
structure Fits (s : Service) (stage : Stage) : Prop where
  drawn_own : ∀ k ∈ stage.own, k.id ∈ s.drawn
  drawn_known : ∀ k ∈ stage.known, k.id ∈ s.drawn
  own_current : ∀ k ∈ stage.own, ∀ c ∈ s.avatarKey, c.id ≠ k.id
  own_known : ∀ k ∈ stage.own, ∀ k' ∈ stage.known, k'.id ≠ k.id
  doomed_current : ∀ o ∈ stage.doomed, ∀ c ∈ s.avatarKey, o.key ≠ c
  held_stored : ∀ o ∈ stage.held, o ∈ s.storage

/-- Nobody knows the new key of another request. -/
structure Apart (stage stage' : Stage) : Prop where
  own : ∀ k ∈ stage.own, ∀ k' ∈ stage'.own, k'.id ≠ k.id
  known : ∀ k ∈ stage.own, ∀ k' ∈ stage'.known, k'.id ≠ k.id
  known' : ∀ k ∈ stage'.own, ∀ k' ∈ stage.known, k'.id ≠ k.id

structure Sound (s : Service) : Prop where
  drawn_current : ∀ c ∈ s.avatarKey, c.id ∈ s.drawn
  current_stored : ∀ o ∈ objectsOf s.avatarKey, o ∈ s.storage
  fits : ∀ task stage, s.tasks.lookup task = some stage → Fits s stage
  apart : ∀ task other stage stage', task ≠ other → s.tasks.lookup task = some stage →
    s.tasks.lookup other = some stage' → Apart stage stage'

/-- Every stored object belongs to the key in the row or is in the care of a request. -/
def Tidy (s : Service) : Prop :=
  ∀ o ∈ s.storage, o ∈ objectsOf s.avatarKey ∨
    ∃ task stage, s.tasks.lookup task = some stage ∧ o ∈ stage.care

section Invariants

variable {s : Service} {task : TaskId} {stage stage' : Stage} {objects : List StorageObject}

theorem Apart.symm (h : Apart stage stage') : Apart stage' stage where
  own k hk k' hk' := (h.own k' hk' k hk).symm
  known := h.known'
  known' := h.known

/-- A request that draws no key stays apart, if what it reads is nobody's new key. -/
theorem Apart.inherit (h : Apart stage stage') {next : Stage}
    (hown : ∀ k ∈ next.own, k ∈ stage.own)
    (hknown : ∀ k ∈ next.known, k ∈ stage.known ∨ ∀ k' ∈ stage'.own, k.id ≠ k'.id) :
    Apart next stage' where
  own k hk := h.own k (hown k hk)
  known k hk := h.known k (hown k hk)
  known' k hk k' hk' := by
    rcases hknown k' hk' with hold | hother
    · exact h.known' k hk k' hold
    · exact hother k hk

theorem lookup_of_endTask {other : TaskId}
    (h : (s.endTask task).tasks.lookup other = some stage) :
    other ≠ task ∧ s.tasks.lookup other = some stage := by
  have hne : other ≠ task := by
    rintro rfl
    simp at h
  refine ⟨hne, ?_⟩
  simpa [hne] using h

/-- The shared data change as one request ends. -/
theorem Sound.endTask (hs : Sound s) {after : Service} (htasks : after.tasks = s.tasks)
    (hdrawn : ∀ c ∈ after.avatarKey, c.id ∈ after.drawn)
    (hstored : ∀ o ∈ objectsOf after.avatarKey, o ∈ after.storage)
    (hothers : ∀ other stage', other ≠ task → s.tasks.lookup other = some stage' →
      Fits after stage') : Sound (after.endTask task) where
  drawn_current := hdrawn
  current_stored := hstored
  fits other stage' h := by
    obtain ⟨hne, hlookup⟩ := lookup_of_endTask h
    have hfits := hothers other stage' hne (htasks ▸ hlookup)
    exact ⟨hfits.drawn_own, hfits.drawn_known, hfits.own_current, hfits.own_known,
      hfits.doomed_current, hfits.held_stored⟩
  apart first second stage stage' hne h h' :=
    hs.apart first second stage stage' hne (htasks ▸ (lookup_of_endTask h).2)
      (htasks ▸ (lookup_of_endTask h').2)

/-- A request at a stage of its own comes back to the others. -/
theorem Sound.setTask (hs : Sound (s.endTask task)) (hfits : Fits s stage)
    (hapart : ∀ other stage', other ≠ task → s.tasks.lookup other = some stage' →
      Apart stage stage') : Sound (s.setTask task stage) where
  drawn_current := hs.drawn_current
  current_stored := hs.current_stored
  fits other stage' h := by
    by_cases hother : other = task
    · subst hother
      obtain rfl : stage = stage' := by simpa using h
      exact ⟨hfits.drawn_own, hfits.drawn_known, hfits.own_current, hfits.own_known,
        hfits.doomed_current, hfits.held_stored⟩
    · have hold := hs.fits other stage' (by simpa [hother] using h)
      exact ⟨hold.drawn_own, hold.drawn_known, hold.own_current, hold.own_known,
        hold.doomed_current, hold.held_stored⟩
  apart first second stage₁ stage₂ hne h h' := by
    by_cases hfirst : first = task
    · subst hfirst
      obtain rfl : stage = stage₁ := by simpa using h
      exact hapart second stage₂ hne.symm (by simpa [hne.symm] using h')
    · by_cases hsecond : second = task
      · subst hsecond
        obtain rfl : stage = stage₂ := by simpa using h'
        exact (hapart first stage₁ hne (by simpa [hne] using h)).symm
      · exact hs.apart first second stage₁ stage₂ hne (by simpa [hfirst] using h)
          (by simpa [hsecond] using h')

theorem Sound.cleanUp (hs : Sound (s.endTask task)) (hfits : Fits s (.deleting objects))
    (hapart : ∀ other stage', other ≠ task → s.tasks.lookup other = some stage' →
      Apart (.deleting objects) stage') : Sound (s.cleanUp task objects) := by
  unfold Service.cleanUp
  split
  · exact hs
  · exact hs.setTask hfits hapart

/-- The same data, for a request that ends. -/
theorem Sound.ended (hs : Sound s) : Sound (s.endTask task) :=
  hs.endTask rfl hs.drawn_current hs.current_stored fun other stage' _ h =>
    hs.fits other stage' h

/-- A request that has ended leaves the others as they were. -/
theorem fits_idle (hown : stage.own = none) (hknown : stage.known = [])
    (hheld : stage.held = []) (hdoomed : stage.doomed = []) : Fits s stage := by
  constructor <;> simp [hown, hknown, hheld, hdoomed]

theorem apart_idle (hown : stage.own = none) (hknown : stage.known = []) :
    Apart stage stage' := by
  constructor <;> simp [hown, hknown]

end Invariants

/-! ## Steps are sound -/

section Steps

variable {s t : Service} {task : TaskId}

theorem start_sound {stage : Stage} (hs : Sound s) (hown : stage.own = none)
    (hknown : stage.known = []) (hheld : stage.held = []) (hdoomed : stage.doomed = [])
    (h : start s task stage = some t) : Sound t := by
  obtain ⟨-, heq⟩ := Option.ite_none_left_eq_some.mp h
  cases heq
  exact hs.ended.setTask (fits_idle hown hknown hheld hdoomed)
    fun _ _ _ _ => apart_idle hown hknown

theorem mem_objectsOf {avatarKey : Option AvatarKey} {o : StorageObject} :
    o ∈ objectsOf avatarKey ↔ ∃ c ∈ avatarKey, o ∈ c.objects := by
  simp [objectsOf]

theorem key_of_mem_objects {key : AvatarKey} {o : StorageObject} (h : o ∈ key.objects) :
    o.key = key := by
  simp only [AvatarKey.objects, List.mem_cons, List.not_mem_nil, or_false] at h
  rcases h with rfl | rfl <;> rfl

theorem read_sound {id : Uuid} {extension : String} (hs : Sound s)
    (h : read s task id extension = some t) : Sound t := by
  unfold read at h
  split at h
  · obtain ⟨hnew, heq⟩ := Option.ite_none_left_eq_some.mp h
    cases heq
    have hcurrent : ∀ c ∈ s.avatarKey, c.id ≠ id := by
      intro c hc heq
      exact hnew (heq ▸ hs.drawn_current c hc)
    have hended : Sound ({ s with drawn := insert id s.drawn }.endTask task) := by
      refine hs.endTask rfl ?_ hs.current_stored ?_
      · intro c hc
        exact Finset.mem_insert_of_mem (hs.drawn_current c hc)
      · intro other stage' _ hother
        have hfits := hs.fits other stage' hother
        exact ⟨fun k hk => Finset.mem_insert_of_mem (hfits.drawn_own k hk),
          fun k hk => Finset.mem_insert_of_mem (hfits.drawn_known k hk), hfits.own_current,
          hfits.own_known, hfits.doomed_current, hfits.held_stored⟩
    refine hended.setTask ?_ ?_
    · constructor
      · simp [Stage.own]
      · intro k hk
        exact Finset.mem_insert_of_mem (hs.drawn_current k (by simpa [Stage.known] using hk))
      · intro k hk c hc
        obtain rfl : ⟨id, extension⟩ = k := by simpa [Stage.own] using hk
        exact hcurrent c hc
      · intro k hk k' hk'
        obtain rfl : ⟨id, extension⟩ = k := by simpa [Stage.own] using hk
        exact hcurrent k' (by simpa [Stage.known] using hk')
      · simp [Stage.doomed]
      · simp [Stage.held]
    · intro other stage' _ hother
      have hfits := hs.fits other stage' hother
      constructor
      · intro k hk k' hk' heq
        obtain rfl : ⟨id, extension⟩ = k := by simpa [Stage.own] using hk
        have hdrawn : id ∈ s.drawn := heq.subst (motive := (· ∈ s.drawn)) (hfits.drawn_own k' hk')
        exact hnew hdrawn
      · intro k hk k' hk' heq
        obtain rfl : ⟨id, extension⟩ = k := by simpa [Stage.own] using hk
        have hdrawn : id ∈ s.drawn := heq.subst (motive := (· ∈ s.drawn)) (hfits.drawn_known k' hk')
        exact hnew hdrawn
      · intro k hk k' hk'
        exact hfits.own_current k hk k' (by simpa [Stage.known] using hk')
  · cases h

/-- Storing one more object suits everybody. -/
theorem Fits.insert {stage : Stage} (h : Fits s stage) (o : StorageObject) :
    Fits { s with storage := insert o s.storage } stage :=
  ⟨h.drawn_own, h.drawn_known, h.own_current, h.own_known, h.doomed_current,
    fun held hheld => Finset.mem_insert_of_mem (h.held_stored held hheld)⟩

/-- The next object of an upload is stored, and nothing else about it changes. -/
theorem stored_sound {stage next : Stage} {o : StorageObject} (hs : Sound s)
    (hstage : s.tasks.lookup task = some stage) (hown : next.own = stage.own)
    (hknown : next.known = stage.known) (hdoomed : next.doomed = [])
    (hheld : ∀ held ∈ next.held, held = o ∨ held ∈ stage.held) :
    Sound ({ s with storage := insert o s.storage }.setTask task next) := by
  have hfits := hs.fits task stage hstage
  have hended : Sound ({ s with storage := insert o s.storage }.endTask task) := by
    refine hs.endTask rfl hs.drawn_current ?_ ?_
    · intro held hheld
      exact Finset.mem_insert_of_mem (hs.current_stored held hheld)
    · intro other stage' _ hother
      exact (hs.fits other stage' hother).insert o
  refine hended.setTask ?_ ?_
  · constructor
    · exact hown ▸ hfits.drawn_own
    · exact hknown ▸ hfits.drawn_known
    · exact hown ▸ hfits.own_current
    · rw [hown, hknown]
      exact hfits.own_known
    · simp [hdoomed]
    · intro held hmem
      rcases hheld held hmem with rfl | hbefore
      · exact Finset.mem_insert_self _ _
      · exact Finset.mem_insert_of_mem (hfits.held_stored held hbefore)
  · intro other stage' hne hother
    have hapart := hs.apart task other stage stage' hne.symm hstage hother
    exact hapart.inherit (fun k hk => hown ▸ hk) fun k hk => Or.inl (hknown ▸ hk)

theorem store_sound (hs : Sound s) (h : store s task = some t) : Sound t := by
  unfold store at h
  split at h
  · rename_i key previous hstage
    cases h
    exact stored_sound hs hstage rfl rfl rfl fun held hheld => by
      simpa [Stage.held] using hheld
  · rename_i key previous hstage
    cases h
    refine stored_sound hs hstage rfl rfl rfl fun held hheld => ?_
    simp only [Stage.held, AvatarKey.objects, List.mem_cons, List.not_mem_nil, or_false] at hheld ⊢
    exact hheld.symm
  · cases h

/-- A request goes on to delete objects whose keys it knows and the row no longer has. -/
theorem cleanUp_sound {stage : Stage} {objects : List StorageObject} {after : Service}
    (hs : Sound s) (hended : Sound (after.endTask task)) (htasks : after.tasks = s.tasks)
    (hstage : s.tasks.lookup task = some stage)
    (hobjects : ∀ o ∈ objects, o.key ∈ stage.known ∨ o.key ∈ stage.own)
    (hdrawn : ∀ o ∈ objects, o.key.id ∈ after.drawn)
    (hcurrent : ∀ o ∈ objects, ∀ c ∈ after.avatarKey, o.key ≠ c) :
    Sound (after.cleanUp task objects) := by
  refine hended.cleanUp ?_ ?_
  · constructor
    · simp [Stage.own]
    · intro k hk
      obtain ⟨o, ho, rfl⟩ := List.mem_map.mp hk
      exact hdrawn o ho
    · simp [Stage.own]
    · simp [Stage.own]
    · exact hcurrent
    · simp [Stage.held]
  · intro other stage' hne hother
    have hapart := hs.apart task other stage stage' hne.symm hstage (htasks ▸ hother)
    refine hapart.inherit (by simp [Stage.own]) ?_
    intro k hk
    obtain ⟨o, ho, rfl⟩ := List.mem_map.mp hk
    rcases hobjects o ho with hknown | hown
    · exact Or.inl hknown
    · right
      intro k' hk'
      exact (hapart.own o.key hown k' hk').symm

theorem update_sound {committed : Bool} (hs : Sound s)
    (h : update s task committed = some t) : Sound t := by
  unfold update at h
  split at h
  · rename_i key previous hstage
    have hfits := hs.fits task _ hstage
    have hdrawn : key.id ∈ s.drawn := hfits.drawn_own key rfl
    split at h
    · cases h
      have hended : Sound ({ s with avatarKey := some key }.endTask task) := by
        refine hs.endTask rfl ?_ ?_ ?_
        · intro c hc
          cases hc
          exact hdrawn
        · intro o ho
          obtain ⟨c, hc, ho⟩ := mem_objectsOf.mp ho
          cases hc
          exact hfits.held_stored o ho
        · intro other stage' hne hother
          have hold := hs.fits other stage' hother
          have hapart := hs.apart task other _ stage' hne.symm hstage hother
          refine ⟨hold.drawn_own, hold.drawn_known, ?_, hold.own_known, ?_, hold.held_stored⟩
          · intro k hk c hc
            cases hc
            exact (hapart.own key rfl k hk).symm
          · intro o ho c hc heq
            cases hc
            have hknown : o.key ∈ stage'.known := by
              cases stage' with
              | deleting objects => exact List.mem_map.mpr ⟨o, ho, rfl⟩
              | _ => simp [Stage.doomed] at ho
            exact hapart.known key rfl o.key hknown (congrArg AvatarKey.id heq)
      have hprevious : ∀ o ∈ (previous.filter (· ≠ key)).toList.flatMap AvatarKey.objects,
          ∃ p ∈ previous, p ≠ key ∧ o ∈ p.objects := by
        intro o ho
        obtain ⟨p, hp, ho⟩ := List.mem_flatMap.mp ho
        obtain ⟨hp, hne⟩ := Option.filter_eq_some_iff.mp (Option.mem_toList.mp hp)
        exact ⟨p, hp, by simpa using hne, ho⟩
      apply cleanUp_sound hs hended rfl hstage
      · intro o ho
        obtain ⟨p, hp, -, ho⟩ := hprevious o ho
        left
        rw [key_of_mem_objects ho]
        exact Option.mem_toList.mpr hp
      · intro o ho
        obtain ⟨p, hp, -, ho⟩ := hprevious o ho
        rw [key_of_mem_objects ho]
        exact hfits.drawn_known p (Option.mem_toList.mpr hp)
      · intro o ho c hc
        cases hc
        obtain ⟨p, -, hne, ho⟩ := hprevious o ho
        rw [key_of_mem_objects ho]
        exact hne
    · cases h
      apply cleanUp_sound hs hs.ended rfl hstage
      · intro o ho
        right
        rw [key_of_mem_objects ho]
        rfl
      · intro o ho
        rw [key_of_mem_objects ho]
        exact hdrawn
      · intro o ho c hc heq
        rw [key_of_mem_objects ho] at heq
        exact hfits.own_current key rfl c hc (congrArg AvatarKey.id heq.symm)
  · cases h

theorem find_sound (hs : Sound s) (h : find s task = some t) : Sound t := by
  unfold find at h
  split at h
  · split at h
    · cases h
      exact hs.ended
    · rename_i avatarKey hkey
      cases h
      refine hs.ended.setTask ?_ ?_
      · constructor
        · simp [Stage.own]
        · intro k hk
          obtain rfl : k = avatarKey := by simpa [Stage.known] using hk
          exact hs.drawn_current k hkey
        · simp [Stage.own]
        · simp [Stage.own]
        · simp [Stage.doomed]
        · simp [Stage.held]
      · intro other stage' _ hother
        constructor
        · simp [Stage.own]
        · simp [Stage.own]
        · intro k hk k' hk'
          obtain rfl : k' = avatarKey := by simpa [Stage.known] using hk'
          exact (hs.fits other stage' hother).own_current k hk k' hkey
  · cases h

theorem clear_sound (hs : Sound s) (h : clear s task = some t) : Sound t := by
  unfold clear at h
  split at h
  · rename_i avatarKey hstage
    split at h
    · rename_i hkey
      cases h
      have hended : Sound ({ s with avatarKey := none }.endTask task) := by
        refine hs.endTask rfl nofun nofun ?_
        intro other stage' _ hother
        have hold := hs.fits other stage' hother
        exact ⟨hold.drawn_own, hold.drawn_known, nofun, hold.own_known, nofun, hold.held_stored⟩
      apply cleanUp_sound hs hended rfl hstage
      · intro o ho
        left
        rw [key_of_mem_objects ho]
        exact List.mem_singleton_self _
      · intro o ho
        rw [key_of_mem_objects ho]
        exact hs.drawn_current avatarKey hkey
      · exact nofun
    · cases h
      exact hs.ended
  · cases h

theorem delete_sound (hs : Sound s) (h : delete s task = some t) : Sound t := by
  unfold delete at h
  split at h
  · rename_i object rest hstage
    cases h
    have hfits := hs.fits task _ hstage
    have hended : Sound ({ s with storage := s.storage.erase object }.endTask task) := by
      refine hs.endTask rfl hs.drawn_current ?_ ?_
      · intro o ho
        refine Finset.mem_erase.mpr ⟨?_, hs.current_stored o ho⟩
        rintro rfl
        obtain ⟨c, hc, ho⟩ := mem_objectsOf.mp ho
        exact hfits.doomed_current o List.mem_cons_self c hc (key_of_mem_objects ho)
      · intro other stage' hne hother
        have hold := hs.fits other stage' hother
        refine ⟨hold.drawn_own, hold.drawn_known, hold.own_current, hold.own_known,
          hold.doomed_current, ?_⟩
        intro o ho
        refine Finset.mem_erase.mpr ⟨?_, hold.held_stored o ho⟩
        rintro rfl
        have hapart := hs.apart task other _ stage' hne.symm hstage hother
        have hown : o.key ∈ stage'.own := by
          cases stage' with
          | storingThumbnail key previous =>
            obtain rfl : o = .original key := by simpa [Stage.held] using ho
            rfl
          | updating key previous =>
            rw [key_of_mem_objects ho]
            rfl
          | _ => simp [Stage.held] at ho
        exact hapart.known' o.key hown o.key (List.mem_map.mpr ⟨o, List.mem_cons_self, rfl⟩) rfl
    apply cleanUp_sound hs hended rfl hstage
    · intro o ho
      exact Or.inl (List.mem_map.mpr ⟨o, List.mem_cons_of_mem _ ho, rfl⟩)
    · intro o ho
      exact hfits.drawn_known o.key (List.mem_map.mpr ⟨o, List.mem_cons_of_mem _ ho, rfl⟩)
    · intro o ho
      exact hfits.doomed_current o (List.mem_cons_of_mem _ ho)
  · cases h

theorem abandon_sound (hs : Sound s) (h : abandon s task = some t) : Sound t := by
  unfold abandon at h
  split at h
  all_goals cases h
  all_goals exact hs.ended

theorem step_sound {a : Action} (hs : Sound s) (h : step s a = some t) : Sound t := by
  cases a with
  | upload task => exact start_sound hs rfl rfl rfl rfl h
  | remove task => exact start_sound hs rfl rfl rfl rfl h
  | read task id extension => exact read_sound hs h
  | store task => exact store_sound hs h
  | update task committed => exact update_sound hs h
  | find task => exact find_sound hs h
  | clear task => exact clear_sound hs h
  | delete task => exact delete_sound hs h
  | abandon task => exact abandon_sound hs h

end Steps

/-! ## What is left behind -/

/-- An upload finds the key it has read in the row, or none. -/
def ReplacesRead (s : Service) : Action → Prop
  | .update task true => ∀ key previous, s.tasks.lookup task = some (.updating key previous) →
      s.avatarKey = none ∨ s.avatarKey = previous
  | _ => True

instance decidableReplacesRead (s : Service) : ∀ a, Decidable (ReplacesRead s a)
  | .update task true =>
    decidable_of_iff
      (∀ stage ∈ s.tasks.lookup task, ∀ key ∈ stage.own, stage = .updating key stage.known.head? →
        s.avatarKey = none ∨ s.avatarKey = stage.known.head?) <| by
      constructor
      · intro h key previous hstage
        cases previous <;> exact h _ hstage key rfl rfl
      · intro h stage hstage key _ hupdating
        exact h key _ (hupdating ▸ hstage)
  | .update _ false | .upload _ | .remove _ | .read .. | .store _ | .find _ | .clear _ | .delete _
  | .abandon _ => isTrue trivial

/-- Every stored object belongs to the key in the row, is in the given care, or in that of another
request. -/
def Covered (s : Service) (task : TaskId) (care : List StorageObject) : Prop :=
  ∀ o ∈ s.storage, o ∈ objectsOf s.avatarKey ∨ o ∈ care ∨
    ∃ other stage, other ≠ task ∧ s.tasks.lookup other = some stage ∧ o ∈ stage.care

section Coverage

variable {s t : Service} {task : TaskId} {stage : Stage} {care objects : List StorageObject}

theorem tidy_iff_covered (hstage : s.tasks.lookup task = some stage) :
    Tidy s ↔ Covered s task stage.care := by
  constructor
  · intro htidy o ho
    rcases htidy o ho with hcurrent | ⟨other, stage', hother, hcare⟩
    · exact Or.inl hcurrent
    · right
      by_cases hne : other = task
      · subst hne
        cases hstage.symm.trans hother
        exact Or.inl hcare
      · exact Or.inr ⟨other, stage', hne, hother, hcare⟩
  · intro hcovered o ho
    rcases hcovered o ho with hcurrent | hcare | ⟨other, stage', -, hother, hcare⟩
    · exact Or.inl hcurrent
    · exact Or.inr ⟨task, stage, hstage, hcare⟩
    · exact Or.inr ⟨other, stage', hother, hcare⟩

theorem tidy_setTask : Tidy (s.setTask task stage) ↔ Covered s task stage.care := by
  rw [tidy_iff_covered (AList.lookup_insert ..)]
  have hsame : ∀ o, (∃ other stage', other ≠ task ∧
      (s.tasks.insert task stage).lookup other = some stage' ∧ o ∈ stage'.care) ↔
        ∃ other stage', other ≠ task ∧ s.tasks.lookup other = some stage' ∧ o ∈ stage'.care := by
    intro o
    constructor
    · intro h
      obtain ⟨other, stage', hne, hother, hcare⟩ := h
      exact ⟨other, stage', hne, by simpa [hne] using hother, hcare⟩
    · intro h
      obtain ⟨other, stage', hne, hother, hcare⟩ := h
      exact ⟨other, stage', hne, by simpa [hne] using hother, hcare⟩
  simp only [Covered, Service.setTask, hsame]

theorem tidy_endTask : Tidy (s.endTask task) ↔ Covered s task [] := by
  constructor
  · intro htidy o ho
    rcases htidy o ho with hcurrent | ⟨other, stage, hother, hcare⟩
    · exact Or.inl hcurrent
    · obtain ⟨hne, hlookup⟩ := lookup_of_endTask hother
      exact Or.inr (Or.inr ⟨other, stage, hne, hlookup, hcare⟩)
  · intro hcovered o ho
    rcases hcovered o ho with hcurrent | hcare | ⟨other, stage, hne, hother, hcare⟩
    · exact Or.inl hcurrent
    · cases hcare
    · exact Or.inr ⟨other, stage, by simpa [hne] using hother, hcare⟩

theorem tidy_cleanUp : Tidy (s.cleanUp task objects) ↔ Covered s task objects := by
  unfold Service.cleanUp
  split
  · rename_i hnone
    rw [hnone]
    exact tidy_endTask
  · exact tidy_setTask

theorem Covered.mono {others : List StorageObject} (h : Covered s task care)
    (hle : ∀ o ∈ care, o ∈ others) : Covered s task others := by
  intro o ho
  rcases h o ho with hcurrent | hcare | hother
  · exact Or.inl hcurrent
  · exact Or.inr (Or.inl (hle o hcare))
  · exact Or.inr (Or.inr hother)

theorem Covered.insert (h : Covered s task care) (o : StorageObject) :
    Covered { s with storage := insert o s.storage } task (o :: care) := by
  intro stored hstored
  rcases Finset.mem_insert.mp hstored with rfl | hold
  · exact Or.inr (Or.inl List.mem_cons_self)
  · exact h.mono (fun held hheld => List.mem_cons_of_mem o hheld) stored hold

/-- Only the update of a row can leave objects behind. -/
theorem step_tidy {a : Action} (htidy : Tidy s) (ha : ∀ task, a ≠ .update task true)
    (h : step s a = some t) : Tidy t := by
  cases a with
  | upload task | remove task =>
    obtain ⟨hnew, heq⟩ := Option.ite_none_left_eq_some.mp h
    cases heq
    rw [tidy_setTask]
    intro o ho
    rcases htidy o ho with hcurrent | ⟨other, stage, hother, hcare⟩
    · exact Or.inl hcurrent
    · have hne : other ≠ task := by
        rintro rfl
        exact hnew (AList.lookup_isSome.mp (Option.isSome_of_mem hother))
      exact Or.inr (Or.inr ⟨other, stage, hne, hother, hcare⟩)
  | read task id extension =>
    simp only [step, read] at h
    split at h
    · rename_i hstage
      obtain ⟨-, heq⟩ := Option.ite_none_left_eq_some.mp h
      cases heq
      exact tidy_setTask.mpr ((tidy_iff_covered hstage).mp htidy)
    · cases h
  | store task =>
    simp only [step, store] at h
    split at h
    · rename_i key previous hstage
      cases h
      exact tidy_setTask.mpr (((tidy_iff_covered hstage).mp htidy).insert _)
    · rename_i key previous hstage
      cases h
      refine tidy_setTask.mpr ((((tidy_iff_covered hstage).mp htidy).insert _).mono ?_)
      simp [Stage.care, Stage.held, Stage.doomed, AvatarKey.objects]
    · cases h
  | update task committed =>
    cases committed with
    | true => exact absurd rfl (ha task)
    | false =>
      simp only [step, update] at h
      split at h
      · rename_i key previous hstage
        cases h
        refine tidy_cleanUp.mpr (((tidy_iff_covered hstage).mp htidy).mono ?_)
        simp [Stage.care, Stage.held, Stage.doomed]
      · cases h
  | find task =>
    simp only [step, find] at h
    split at h
    · rename_i hstage
      have hcovered := (tidy_iff_covered hstage).mp htidy
      split at h
      · cases h
        exact tidy_endTask.mpr hcovered
      · cases h
        exact tidy_setTask.mpr hcovered
    · cases h
  | clear task =>
    simp only [step, clear] at h
    split at h
    · rename_i avatarKey hstage
      have hcovered := (tidy_iff_covered hstage).mp htidy
      split at h
      · rename_i hkey
        cases h
        rw [tidy_cleanUp]
        intro o ho
        rcases hcovered o ho with hcurrent | hcare | hother
        · right
          left
          simpa [objectsOf, hkey] using hcurrent
        · cases hcare
        · exact Or.inr (Or.inr hother)
      · cases h
        exact tidy_endTask.mpr hcovered
    · cases h
  | delete task =>
    simp only [step, delete] at h
    split at h
    · rename_i object rest hstage
      cases h
      rw [tidy_cleanUp]
      intro o ho
      obtain ⟨hne, ho⟩ := Finset.mem_erase.mp ho
      rcases (tidy_iff_covered hstage).mp htidy o ho with hcurrent | hcare | hother
      · exact Or.inl hcurrent
      · rcases List.mem_cons.mp hcare with heq | hrest
        · exact absurd heq hne
        · exact Or.inr (Or.inl hrest)
      · exact Or.inr (Or.inr hother)
    · cases h
  | abandon task =>
    simp only [step, abandon] at h
    split at h
    all_goals cases h
    all_goals
      rename_i hstage
      exact tidy_endTask.mpr ((tidy_iff_covered hstage).mp htidy)

/-- Nobody but the row has the objects of its key. -/
theorem not_care_current (hs : Sound s) (hstage : s.tasks.lookup task = some stage) {c : AvatarKey}
    (hc : s.avatarKey = some c) : .original c ∉ stage.care := by
  intro hcare
  have hfits := hs.fits task stage hstage
  rcases List.mem_append.mp hcare with hheld | hdoomed
  · have hown : c ∈ stage.own := by
      cases stage with
      | storingThumbnail key previous =>
        obtain rfl : c = key := by simpa [Stage.held] using hheld
        rfl
      | updating key previous =>
        obtain rfl : c = key := key_of_mem_objects hheld
        rfl
      | _ => simp [Stage.held] at hheld
    exact hfits.own_current c hown c hc rfl
  · exact hfits.doomed_current _ hdoomed c hc rfl

/-- The update of a row leaves nothing behind exactly when it replaces the key it has read. -/
theorem update_tidy_iff (hs : Sound s) (htidy : Tidy s) (h : update s task true = some t) :
    Tidy t ↔ ReplacesRead s (.update task true) := by
  unfold update at h
  split at h
  · rename_i key previous hstage
    cases h
    have hcovered := (tidy_iff_covered hstage).mp htidy
    have hfits := hs.fits task _ hstage
    rw [tidy_cleanUp]
    constructor
    · intro hafter key' previous' hstage'
      cases hstage.symm.trans hstage'
      cases hc : s.avatarKey with
      | none => exact Or.inl rfl
      | some c =>
        right
        have hne : c ≠ key := fun heq => hfits.own_current key rfl c hc (congrArg _ heq)
        have hstored : .original c ∈ s.storage := by
          apply hs.current_stored
          simp [objectsOf, hc, AvatarKey.objects]
        rcases hafter _ hstored with hcurrent | hcare | ⟨other, stage, -, hother, hcare⟩
        · have hcurrent : .original c ∈ key.objects := by simpa [objectsOf] using hcurrent
          exact absurd (key_of_mem_objects hcurrent) hne
        · obtain ⟨p, hp, ho⟩ := List.mem_flatMap.mp hcare
          obtain ⟨hp, -⟩ := Option.filter_eq_some_iff.mp (Option.mem_toList.mp hp)
          obtain rfl : c = p := key_of_mem_objects ho
          exact hp.symm
        · exact absurd hcare (not_care_current hs hother hc)
    · intro hreplaces o ho
      rcases hcovered o ho with hcurrent | hcare | hother
      · right
        left
        obtain ⟨c, hc, ho⟩ := mem_objectsOf.mp hcurrent
        have hne : c ≠ key := fun heq => hfits.own_current key rfl c hc (congrArg _ heq)
        rcases hreplaces key previous hstage with hnone | hread
        · rw [hnone] at hc
          cases hc
        · refine List.mem_flatMap.mpr ⟨c, ?_, ho⟩
          rw [Option.mem_toList, ← hread, hc]
          exact Option.filter_eq_some_iff.mpr ⟨rfl, by simpa using hne⟩
      · left
        simpa [Stage.care, Stage.held, Stage.doomed, objectsOf] using hcare
      · exact Or.inr (Or.inr hother)
  · cases h

end Coverage

section Runs

variable {avatarKey : Option AvatarKey}

theorem sound_init : Sound (avatarRequests avatarKey).init where
  drawn_current c hc := by
    have hc : avatarKey = some c := hc
    simp [avatarRequests, hc]
  current_stored o ho := List.mem_toFinset.mpr ho
  fits task stage h := by
    rw [avatarRequests, AList.lookup_empty] at h
    cases h
  apart task other stage stage' _ h := by
    rw [avatarRequests, AList.lookup_empty] at h
    cases h

theorem tidy_init : Tidy (avatarRequests avatarKey).init := by
  intro o ho
  exact Or.inl (List.mem_toFinset.mp ho)

/-- One step leaves everything tidy exactly when it meets the condition. -/
theorem step_tidy_iff {s t : Service} {a : Action} (hs : Sound s) (htidy : Tidy s)
    (h : step s a = some t) : Tidy t ↔ ReplacesRead s a := by
  by_cases ha : ∃ task, a = .update task true
  · obtain ⟨task, rfl⟩ := ha
    exact update_tidy_iff hs htidy h
  · have hother : ∀ task, a ≠ .update task true := fun task heq => ha ⟨task, heq⟩
    have htrue : ReplacesRead s a := by
      unfold ReplacesRead
      split
      · exact absurd rfl (hother _)
      · trivial
    exact ⟨fun _ => htrue, fun _ => step_tidy htidy hother h⟩

theorem replacesRead_idle {s : Service} {a : Action} (h : step s a = none) : ReplacesRead s a := by
  unfold ReplacesRead
  split
  · intro key previous hstage
    simp [step, update, hstage] at h
  · trivial

theorem always_tidy_iff (actions : List Action) :
    (avatarRequests avatarKey).Always Tidy (avatarRequests avatarKey).init actions ↔
      (avatarRequests avatarKey).Guarded ReplacesRead (avatarRequests avatarKey).init actions :=
  System.always_iff_guarded (J := Sound) (fun _ _ _ hs _ h => step_sound hs h)
    (fun _ _ _ hs htidy h => step_tidy_iff hs htidy h) (fun _ _ h => replacesRead_idle h)
    sound_init tidy_init actions

theorem sound_run {s : Service} {actions : List Action}
    (hrun : (avatarRequests avatarKey).run actions = some s) : Sound s :=
  System.invariant_run sound_init (fun _ _ _ hs h => step_sound hs h) hrun

/-- Once all requests have ended nothing but the current avatar is stored. -/
theorem storage_eq {s : Service} (hs : Sound s) (htidy : Tidy s) (hidle : s.tasks = ∅) :
    s.storage = (objectsOf s.avatarKey).toFinset := by
  ext o
  rw [List.mem_toFinset]
  constructor
  · intro ho
    rcases htidy o ho with hcurrent | ⟨task, stage, hstage, -⟩
    · exact hcurrent
    · rw [hidle, AList.lookup_empty] at hstage
      cases hstage
  · intro ho
    exact hs.current_stored o ho

end Runs

/-- The objects of the key in the row are stored in every state reached. Nothing is left behind in
any state of a run exactly when every upload replaces the key it has read, or none, and then the
storage holds the current avatar and its thumbnail once all requests have ended. -/
theorem avatars_tidy_iff (avatarKey : Option AvatarKey) (actions : List Action) :
    ((avatarRequests avatarKey).Always Tidy (avatarRequests avatarKey).init actions ↔
      (avatarRequests avatarKey).Guarded ReplacesRead (avatarRequests avatarKey).init actions) ∧
    ∀ s, (avatarRequests avatarKey).run actions = some s →
      (∀ o ∈ objectsOf s.avatarKey, o ∈ s.storage) ∧
      ((avatarRequests avatarKey).Guarded ReplacesRead (avatarRequests avatarKey).init actions →
        s.tasks = ∅ → s.storage = (objectsOf s.avatarKey).toFinset) := by
  refine ⟨always_tidy_iff actions, fun s hrun => ⟨(sound_run hrun).current_stored, ?_⟩⟩
  intro hguarded hidle
  have halways := (always_tidy_iff actions).mpr hguarded
  rw [← List.append_nil actions] at halways
  exact storage_eq (sound_run hrun) (halways.runFrom hrun) hidle

/-- Two uploads of a user without an avatar, both before the other's update. -/
def uploadTwice : List Action :=
  [.upload 1, .read 1 10 "png", .upload 2, .read 2 20 "png", .store 1, .store 1, .store 2, .store 2,
    .update 1 true, .update 2 true]

/-- The first one's objects stay behind. -/
theorem uploadTwice_orphans :
    ∃ s, (avatarRequests none).run uploadTwice = some s ∧ s.tasks = ∅ ∧
      s.avatarKey = some ⟨20, "png"⟩ ∧ .original ⟨10, "png"⟩ ∈ s.storage ∧
      s.storage ≠ (objectsOf s.avatarKey).toFinset := by
  refine ⟨_, rfl, rfl, rfl, by decide, by decide⟩

/-- One upload after the other. -/
def uploadInTurn : List Action :=
  [.upload 1, .read 1 10 "png", .store 1, .store 1, .update 1 true,
    .upload 2, .read 2 20 "png", .store 2, .store 2, .update 2 true, .delete 2, .delete 2]

theorem uploadInTurn_tidy :
    ∃ s, (avatarRequests none).run uploadInTurn = some s ∧
      s.storage = (objectsOf (some ⟨20, "png"⟩)).toFinset := by
  refine ⟨_, rfl, ?_⟩
  exact ((avatars_tidy_iff none uploadInTurn).2 _ rfl).2 (by decide +kernel) rfl

end OpenMeet.UserAvatars
