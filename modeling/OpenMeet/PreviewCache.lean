import OpenMeet.ExpiringCache
import OpenMeet.HtmlScanner
import OpenMeet.RoomState
import OpenMeet.TransitionSystem

/-!
The cache of link previews. It is locked when a page is looked up and again when
the page has been fetched, but not while it is, so several requests may fetch
one page at once. Failures are cached like previews.
-/
namespace OpenMeet.PreviewCache

open KeyedMap HtmlScanner ExpiringCache TransitionSystem
open RoomState (Instant)

/-- An hour, in the nanoseconds of the monotonic clock. -/
def cacheTtl : ℕ := 60 * 60 * 1000000000

def cacheCapacity : ℕ := 512

/-- The cache, and the pages that are being fetched. -/
structure Previews where
  now : Instant
  cache : Cache String (Option LinkPreview)
  fetching : Map Nat String

inductive PreviewAction
  | elapse (duration : ℕ)
  | startPreview (request : Nat) (url : String)
  | finishPreview (request : Nat) (preview : Option LinkPreview) (oldest : String)
  | dropRequest (request : Nat)
  deriving DecidableEq

section Steps

variable (s : Previews)

/-- What the cache answers for a page, if anything. -/
def cached (url : String) : Option (Option LinkPreview) := get cacheTtl s.cache s.now url

/-- A request is answered from the cache or fetches the page. -/
def startPreview (request : Nat) (url : String) : Option Previews :=
  if request ∈ s.fetching then none
  else
    match cached s url with
    | some _ => some s
    | none => some { s with fetching := s.fetching.insert request url }

/-- The page has been fetched, or could not be. -/
def finishPreview (request : Nat) (preview : Option LinkPreview) (oldest : String) :
    Option Previews :=
  (s.fetching.lookup request).bind fun url =>
    (put cacheTtl cacheCapacity s.cache s.now oldest url preview).map fun cache =>
      { s with cache := cache, fetching := s.fetching.erase request }

def step : PreviewAction → Option Previews
  | .elapse duration => some { s with now := s.now + duration }
  | .startPreview request url => startPreview s request url
  | .finishPreview request preview oldest => finishPreview s request preview oldest
  | .dropRequest request =>
    if request ∈ s.fetching then some { s with fetching := s.fetching.erase request } else none

/-- What the requests that fetch a page find, under its URL and at the time they are done. -/
def fetches : PreviewAction → List (Stored String (Option LinkPreview))
  | .finishPreview request preview _ =>
    (s.fetching.lookup request).toList.map fun url => ⟨url, s.now, preview⟩
  | _ => []

end Steps

def system : System Previews PreviewAction := ⟨⟨0, ∅, ∅⟩, step⟩

section Runs

variable {s t : Previews} {a : PreviewAction} {log : List (Stored String (Option LinkPreview))}

/-- The cache is true to what has been fetched. -/
def Reflecting (log : List (Stored String (Option LinkPreview))) (s : Previews) : Prop :=
  Reflects cacheTtl cacheCapacity s.cache s.now log

theorem reflecting_step (h : Reflecting log s) (hstep : system.step s a = some t) :
    Reflecting (log ++ fetches s a) t := by
  cases a with
  | elapse duration =>
    cases hstep
    show Reflecting (log ++ []) _
    rw [List.append_nil]
    exact h.later (Nat.le_add_right s.now duration)
  | startPreview request url =>
    have hstart : startPreview s request url = some t := hstep
    show Reflecting (log ++ []) t
    rw [List.append_nil]
    unfold startPreview at hstart
    split at hstart
    · cases hstart
    · split at hstart <;> cases hstart
      · exact h
      · exact h
  | finishPreview request preview oldest =>
    obtain ⟨url, hurl, hput⟩ := Option.bind_eq_some_iff.mp hstep
    obtain ⟨cache, hcache, rfl⟩ := Option.map_eq_some_iff.mp hput
    rw [fetches, hurl]
    exact h.put hcache
  | dropRequest request =>
    obtain ⟨-, heq⟩ := Option.ite_none_right_eq_some.mp hstep
    cases heq
    show Reflecting (log ++ []) _
    rw [List.append_nil]
    exact h

/-- However requests overlap, the cache stays within its bounds, and it answers for a page what was
found there last, within the hour, unless as many pages as it holds have been fetched since. -/
theorem previews_cached {actions : List PreviewAction} (hrun : system.run actions = some s) :
    let fetched := system.outputs fetches system.init actions
    s.cache.keys.length ≤ cacheCapacity ∧
      (∀ url preview, cached s url = some preview → ∃ time,
        latest fetched url = some ⟨url, time, preview⟩ ∧ s.now < time + cacheTtl) ∧
      ∀ stored, latest fetched stored.key = some stored →
        fetched.countP (stored.time ≤ ·.time) ≤ cacheCapacity →
        cached s stored.key =
          if s.now < stored.time + cacheTtl then some stored.value else none := by
  have hstart : Reflecting [] system.init := reflects_empty
  have h : Reflecting (system.outputs fetches system.init actions) s :=
    System.outputs_runFrom (H := fun _ => Reflecting) hstart
      (fun _ log s a t => reflecting_step) hrun
  refine ⟨h.size, ?_, ?_⟩
  · intro url preview hcached
    exact h.latest_of_get hcached
  · intro stored hlatest hcount
    exact h.get_eq hlatest hcount

/-- Two requests fetch one page at once, and half an hour later a third one is answered with what
the slower of them found. -/
def sharedFetch : List PreviewAction :=
  [.startPreview 1 "https://a.org/", .startPreview 2 "https://a.org/", .elapse 5,
    .finishPreview 2 (some ⟨"https://a.org/", some ['a'], none, none, false, none⟩) "", .elapse 7,
    .finishPreview 1 none "", .elapse (30 * 60 * 1000000000)]

theorem sharedFetch_cached : ∃ s, system.run sharedFetch = some s ∧
    cached s "https://a.org/" = some none := by
  obtain ⟨s, hrun, htest⟩ := System.exists_run_of_any system system.init sharedFetch
    (fun s => s.now < 12 + cacheTtl) (by decide +kernel)
  obtain ⟨hlatest, hcount⟩ :
      latest (system.outputs fetches system.init sharedFetch) "https://a.org/" =
        some ⟨"https://a.org/", 12, none⟩ ∧
      (system.outputs fetches system.init sharedFetch).countP (12 ≤ ·.time) ≤ cacheCapacity := by
    decide +kernel
  have hcached := (previews_cached hrun).2.2 ⟨"https://a.org/", 12, none⟩ hlatest hcount
  refine ⟨s, hrun, hcached.trans ?_⟩
  exact if_pos (of_decide_eq_true htest)

end Runs

end OpenMeet.PreviewCache
