import OpenMeet.CandidateLists

/-!
The search texts of the user lists. The administrators' list and the social
lists escape a text in the same way, so both look for it as it was typed, and
nothing in it is a wildcard.
-/
namespace OpenMeet.LiteralSearch

open Text SocialTables LikePatterns CandidateLists

def maxSearchLength : ℕ := 100

def escapeLike (value : String) : String :=
  String.ofList (replaceChar '_' ['\\', '_'] (replaceChar '%' ['\\', '%']
    (replaceChar '\\' ['\\', '\\'] value.toList)))

def accountsPattern (search : String) : String := "%" ++ escapeLike search ++ "%"

/-- The pattern of a list request, if it is a search. -/
def listUsersPattern (search : Option String) : Option String :=
  (search.map trim).bind fun search =>
    if search.isEmpty then none
    else some (accountsPattern (String.ofList (search.toList.take maxSearchLength)))

theorem accountsPattern_eq (search : String) :
    accountsPattern search = userSearchPattern search := by
  apply String.toList_inj.mp
  simp [accountsPattern, escapeLike, userSearchPattern, String.toList_append]

theorem like_userSearchPattern (query text : String) :
    like (userSearchPattern query) text = true ↔ query.toList <:+: text.toList := by
  apply like_escape_iff
  rw [userSearchPattern, String.toList_ofList, replaceChars_eq_escape]

/-- Folding the case of one character after the other leaves the escapes where they are, if it
neither makes nor changes a special character. -/
theorem escape_flatMap {fold : Char → List Char} (hspecial : ∀ c ∈ special, fold c = [c])
    (hplain : ∀ c ∉ special, ∀ d ∈ fold c, d ∉ special) (text : List Char) :
    (escape text).flatMap fold = escape (text.flatMap fold) := by
  have hletters : ∀ letters : List Char, (∀ d ∈ letters, d ∉ special) →
      escape letters = letters := by
    intro letters h
    induction letters with
    | nil => rfl
    | cons d rest ih =>
      have hrest := ih fun e he => h e (List.mem_cons_of_mem d he)
      have hd := h d List.mem_cons_self
      unfold escape at hrest ⊢
      rw [List.flatMap_cons, hrest, if_neg hd, List.singleton_append]
  induction text with
  | nil => rfl
  | cons c rest ih =>
    have happend : ∀ first second, escape (first ++ second) = escape first ++ escape second :=
      fun _ _ => List.flatMap_append
    have hcons : escape (c :: rest) = escape [c] ++ escape rest := happend [c] rest
    rw [hcons, List.flatMap_append, ih, List.flatMap_cons, happend]
    congr 1
    by_cases hc : c ∈ special
    · have hbackslash : fold '\\' = ['\\'] := hspecial _ (by decide)
      have hescape : escape [c] = ['\\', c] := by simp [escape, hc]
      rw [hescape, hspecial c hc, hescape, List.flatMap_cons, hbackslash, List.flatMap_cons,
        hspecial c hc]
      rfl
    · rw [hletters [c] fun d hd => List.mem_singleton.mp hd ▸ hc, hletters _ (hplain c hc)]
      exact List.flatMap_singleton ..

/-- With the case folded, a search finds the texts that contain what was typed. -/
theorem ilike_accountsPattern {fold : Char → List Char} (hspecial : ∀ c ∈ special, fold c = [c])
    (hplain : ∀ c ∉ special, ∀ d ∈ fold c, d ∉ special) (search text : String) :
    ilike (fun text => String.ofList (text.toList.flatMap fold)) (accountsPattern search) text =
        true ↔
      search.toList.flatMap fold <:+: text.toList.flatMap fold := by
  have hpercent : fold '%' = ['%'] := hspecial _ (by decide)
  have hfolded : (String.ofList ((accountsPattern search).toList.flatMap fold)).toList =
      '%' :: (escape (search.toList.flatMap fold) ++ ['%']) := by
    rw [accountsPattern_eq, userSearchPattern, String.toList_ofList, replaceChars_eq_escape,
      String.toList_ofList, List.flatMap_cons, List.flatMap_append, List.flatMap_singleton,
      hpercent, escape_flatMap hspecial hplain]
    rfl
  rw [ilike, like_escape_iff _ hfolded, String.toList_ofList]

/-- What a list request looks for: its search text without the blanks around it, cut at the longest
that is searched for. -/
def typed (search : String) : List Char := (trim search).toList.take maxSearchLength

/-- A request lists the texts that contain what was typed, all of them if nothing was. -/
theorem ilike_listUsersPattern {fold : Char → List Char} (hspecial : ∀ c ∈ special, fold c = [c])
    (hplain : ∀ c ∉ special, ∀ d ∈ fold c, d ∉ special) (search text : String) :
    (listUsersPattern (some search)).all
        (ilike (fun text => String.ofList (text.toList.flatMap fold)) · text) = true ↔
      (typed search).flatMap fold <:+: text.toList.flatMap fold := by
  rw [listUsersPattern, Option.map_some, Option.bind_some]
  split
  · rename_i hempty
    have htyped : typed search = [] := by
      rw [typed, String.isEmpty_iff.mp hempty]
      rfl
    rw [htyped]
    simp
  · rw [Option.all_some, ilike_accountsPattern hspecial hplain, String.toList_ofList, typed]

/-- A search text matches as it is, in the lists of users and in the administrators' list, which
build the same pattern. -/
theorem searches_are_literal (query text : String) :
    (like (userSearchPattern query) text = true ↔ query.toList <:+: text.toList) ∧
      (like ("%" ++ escapeLike query ++ "%") text = true ↔ query.toList <:+: text.toList) ∧
      "%" ++ escapeLike query ++ "%" = userSearchPattern query := by
  have hsame : "%" ++ escapeLike query ++ "%" = userSearchPattern query := accountsPattern_eq query
  rw [hsame]
  exact ⟨like_userSearchPattern query text, like_userSearchPattern query text, rfl⟩

/-- The example of the source's test. -/
example : escapeLike "50%_off\\" = "50\\%\\_off\\\\" := by decide

end OpenMeet.LiteralSearch
