import OpenMeet.Messages
import OpenMeet.Numerals

/-!
The paths under which pictures and attachments are served. A path names its user
or its conversation by the text of a UUID, which no two of them share. The path
of an avatar ends in what changes with it: the name of a user's file, a new one
for each upload, or the time of a group's last update.
-/
namespace OpenMeet.Urls

open Messages Numerals

/-! ## UUIDs as text -/

def hexDigits : List Char := "0123456789abcdef".toList

/-- Eight, four, four, four and twelve digits, with hyphens between them. -/
def hyphenated (digits : List Char) : List Char :=
  digits.take 8 ++ '-' :: (digits.drop 8).take 4 ++ '-' :: (digits.drop 12).take 4 ++
    '-' :: (digits.drop 16).take 4 ++ '-' :: digits.drop 20

def uuidDigits (id : Uuid) : List Char :=
  (numeral 16 32 id.toNat).map fun digit => hexDigits.getD digit '0'

def uuidText (id : Uuid) : String := String.ofList (hyphenated (uuidDigits id))

section UuidText

theorem hexDigits_idxOf : ∀ digit < 16, hexDigits.idxOf (hexDigits.getD digit '0') = digit := by
  decide

theorem hyphen_notMem : '-' ∉ hexDigits := by decide

theorem uuid_lt (id : Uuid) : id.toNat < 16 ^ 32 := by
  have h := id.isLt
  omega

theorem mem_uuidDigits {id : Uuid} {c : Char} (h : c ∈ uuidDigits id) : c ∈ hexDigits := by
  obtain ⟨digit, hdigit, rfl⟩ := List.mem_map.mp h
  have hlt : digit < 16 := lt_of_mem_numeral (by omega) hdigit
  have hlength : hexDigits.length = 16 := rfl
  rw [List.getD_eq_getElem?_getD, List.getElem?_eq_getElem (by omega)]
  exact List.getElem_mem _

theorem filter_hyphenated {digits : List Char} (h : '-' ∉ digits) :
    (hyphenated digits).filter (· ≠ '-') = digits := by
  have hkeep : ∀ part : List Char, part ⊆ digits → part.filter (· ≠ '-') = part := by
    intro part hpart
    apply List.filter_eq_self.mpr
    intro c hc
    exact decide_eq_true fun heq => h (heq ▸ hpart hc)
  have htake : ∀ n m, (digits.drop n).take m ⊆ digits := fun n m c hc =>
    List.mem_of_mem_drop (List.mem_of_mem_take hc)
  have hsplit : digits = digits.take 8 ++ ((digits.drop 8).take 4 ++ ((digits.drop 12).take 4 ++
      ((digits.drop 16).take 4 ++ digits.drop 20))) := by
    have hdrop : ∀ n m, (digits.drop n).take m ++ digits.drop (n + m) = digits.drop n := by
      intro n m
      rw [← List.drop_drop]
      exact List.take_append_drop m _
    rw [hdrop 16 4, hdrop 12 4, hdrop 8 4, List.take_append_drop]
  unfold hyphenated
  simp only [List.filter_append, List.filter_cons, ne_eq, not_true_eq_false, decide_false,
    Bool.false_eq_true, if_false, List.append_assoc, List.cons_append]
  rw [hkeep _ (List.take_subset ..), hkeep _ (htake 8 4), hkeep _ (htake 12 4),
    hkeep _ (htake 16 4), hkeep _ (List.drop_subset ..)]
  exact hsplit.symm

theorem uuidText_injective : Function.Injective uuidText := by
  intro id other h
  have hdigits : uuidDigits id = uuidDigits other := by
    have hlists := congrArg (fun text => text.toList.filter (· ≠ '-')) h
    simp only [uuidText, String.toList_ofList] at hlists
    rwa [filter_hyphenated fun hc => hyphen_notMem (mem_uuidDigits hc),
      filter_hyphenated fun hc => hyphen_notMem (mem_uuidDigits hc)] at hlists
  have hread : ∀ n,
      (numeral 16 32 n).map (fun digit => hexDigits.idxOf (hexDigits.getD digit '0')) =
      numeral 16 32 n := by
    intro n
    rw [List.map_congr_left fun digit hdigit =>
      hexDigits_idxOf digit (lt_of_mem_numeral (by omega) hdigit), List.map_id']
  have hnumerals := congrArg (List.map hexDigits.idxOf) hdigits
  simp only [uuidDigits, List.map_map, Function.comp_def, hread] at hnumerals
  exact BitVec.eq_of_toNat_eq (numeral_injective (by omega) (uuid_lt id) (uuid_lt other) hnumerals)

end UuidText

/-! ## Paths -/

/-- What comes after the last of the separators, if there is one. -/
def afterLast (separator : Char) (text : List Char) : List Char :=
  (text.reverse.takeWhile (· ≠ separator)).reverse

/-- A user avatar URL whose revision changes with every upload, because each upload gets a new
random file name. -/
def userAvatarUrl (userId : Uuid) (avatarKey : String) : String :=
  let revision := (afterLast '/' avatarKey.toList).takeWhile (· ≠ '.')
  "/social/users/" ++ uuidText userId ++ "/avatar?v=" ++ String.ofList revision

def groupAvatarUrlWithRevision (groupId : Uuid) (updatedAt : Nat) : String :=
  "/social/conversations/groups/" ++ uuidText groupId ++ "/avatar?v=" ++ toString updatedAt

def attachmentUrl (conversationId attachmentId : Uuid) : String :=
  "/social/conversations/" ++ uuidText conversationId ++ "/attachments/" ++ uuidText attachmentId

example : userAvatarUrl 0 "avatars/user/0a1b.png" =
    "/social/users/00000000-0000-0000-0000-000000000000/avatar?v=0a1b" := by
  decide +kernel

end OpenMeet.Urls
