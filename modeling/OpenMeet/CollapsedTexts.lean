import OpenMeet.HtmlScanner

/-!
Collapsed and cut texts. Each run of whitespace between words becomes one space,
so a longer text is collapsed to a longer one, and a text is cut after a number
of characters.
-/
namespace OpenMeet.CollapsedTexts

open Text TextSlices HtmlScanner

section Collapse

variable {c : Char} {text first second : List Char} {limit : ℕ}

theorem splitWhitespace_blank (hc : isWhitespace c = true) (text : List Char) :
    splitWhitespace (c :: text) = splitWhitespace text := by
  unfold splitWhitespace
  rw [List.splitOnP_cons_eq_if_modifyHead, if_pos hc, List.filter_cons_of_neg (by decide)]

theorem collapse_blank (hc : isWhitespace c = true) (text : List Char) :
    collapse (c :: text) = collapse text := by
  rw [collapse, splitWhitespace_blank hc, collapse]

theorem collapse_eq_nil_iff : collapse text = [] ↔ splitWhitespace text = [] := by
  constructor
  · intro h
    unfold collapse at h
    cases hwords : splitWhitespace text with
    | nil => rfl
    | cons word words =>
      have hword : word ∈ splitWhitespace text := hwords ▸ List.mem_cons_self
      have hnonempty := (List.mem_filter.mp hword).2
      rw [hwords] at h
      cases word with
      | nil => cases hnonempty
      | cons c rest =>
        rw [List.intercalate_cons_cons_left] at h
        cases h
  · intro h
    rw [collapse, h, List.intercalate_nil]

/-- Whitespace after a character is one space if a word comes later. -/
theorem collapse_end (hc : isWhitespace c = false) {d : Char} (hd : isWhitespace d = true)
    (text : List Char) : collapse (c :: d :: text) =
      c :: (if collapse text = [] then [] else ' ' :: collapse text) := by
  have hwords : splitWhitespace (c :: d :: text) = [c] :: splitWhitespace text := by
    unfold splitWhitespace
    rw [List.splitOnP_cons_eq_if_modifyHead, if_neg (by rw [hc]; exact Bool.false_ne_true),
      List.splitOnP_cons_eq_if_modifyHead, if_pos hd, List.modifyHead_cons,
      List.filter_cons_of_pos rfl]
  rw [collapse, hwords, List.intercalate_cons_cons_left]
  split
  · rename_i hnil
    rw [collapse_eq_nil_iff.mp hnil, List.intercalate_singleton]
  · rename_i hnonempty
    have hne : splitWhitespace text ≠ [] := fun h => hnonempty (collapse_eq_nil_iff.mpr h)
    rw [List.intercalate_cons_of_ne_nil hne]
    rfl

/-- A word goes on with the next character. -/
theorem collapse_word (hc : isWhitespace c = false) {d : Char} (hd : isWhitespace d = false)
    (text : List Char) : collapse (c :: d :: text) = c :: collapse (d :: text) := by
  obtain ⟨word, words, hsplit⟩ :=
    List.exists_cons_of_ne_nil (List.splitOnP_ne_nil isWhitespace text)
  have hrest : splitWhitespace (d :: text) =
      (d :: word) :: words.filter fun word => !word.isEmpty := by
    unfold splitWhitespace
    rw [List.splitOnP_cons_eq_if_modifyHead, if_neg (by rw [hd]; exact Bool.false_ne_true), hsplit,
      List.modifyHead_cons, List.filter_cons_of_pos rfl]
  have hwords : splitWhitespace (c :: d :: text) =
      (c :: d :: word) :: words.filter fun word => !word.isEmpty := by
    unfold splitWhitespace
    rw [List.splitOnP_cons_eq_if_modifyHead, if_neg (by rw [hc]; exact Bool.false_ne_true),
      List.splitOnP_cons_eq_if_modifyHead, if_neg (by rw [hd]; exact Bool.false_ne_true), hsplit,
      List.modifyHead_cons, List.modifyHead_cons, List.filter_cons_of_pos rfl]
  rw [collapse, hwords, List.intercalate_cons_cons_left, collapse, hrest]

theorem collapse_singleton (hc : isWhitespace c = false) : collapse [c] = [c] := by
  have hwords : splitWhitespace [c] = [[c]] := by
    unfold splitWhitespace
    rw [List.splitOnP_cons_eq_if_modifyHead, if_neg (by rw [hc]; exact Bool.false_ne_true)]
    rfl
  rw [collapse, hwords, List.intercalate_singleton]

/-- A text that goes on is collapsed to one that goes on. -/
theorem collapse_prefix (first second : List Char) :
    collapse first <+: collapse (first ++ second) := by
  induction first with
  | nil => exact List.nil_prefix
  | cons c rest ih =>
    rw [List.cons_append]
    cases hc : isWhitespace c with
    | true =>
      rw [collapse_blank hc, collapse_blank hc]
      exact ih
    | false =>
      cases rest with
      | nil =>
        rw [collapse_singleton hc, List.nil_append]
        cases second with
        | nil =>
          rw [collapse_singleton hc]
        | cons d second =>
          cases hd : isWhitespace d with
          | true =>
            rw [collapse_end hc hd]
            exact List.cons_prefix_cons.mpr ⟨rfl, List.nil_prefix⟩
          | false =>
            rw [collapse_word hc hd]
            exact List.cons_prefix_cons.mpr ⟨rfl, List.nil_prefix⟩
      | cons d rest =>
        rw [List.cons_append] at ih ⊢
        cases hd : isWhitespace d with
        | true =>
          rw [collapse_blank hd, collapse_blank hd] at ih
          rw [collapse_end hc hd, collapse_end hc hd]
          refine List.cons_prefix_cons.mpr ⟨rfl, ?_⟩
          split
          · exact List.nil_prefix
          · rename_i hnonempty
            have hmore : collapse (rest ++ second) ≠ [] := fun hnil =>
              hnonempty (List.prefix_nil.mp (hnil ▸ ih))
            rw [if_neg hmore]
            exact List.cons_prefix_cons.mpr ⟨rfl, ih⟩
        | false =>
          rw [collapse_word hc hd, collapse_word hc hd]
          exact List.cons_prefix_cons.mpr ⟨rfl, ih⟩

/-- Apart from spaces, the characters are those of the text. -/
theorem mem_collapse_iff {d : Char} (hd : isWhitespace d = false) :
    d ∈ collapse text ↔ d ∈ text := by
  have hspace : d ≠ ' ' := by
    rintro rfl
    cases hd
  induction text with
  | nil => exact Iff.rfl
  | cons c rest ih =>
    cases hc : isWhitespace c with
    | true =>
      have hne : d ≠ c := by
        rintro rfl
        rw [hc] at hd
        cases hd
      rw [collapse_blank hc, List.mem_cons]
      exact ih.trans (or_iff_right hne).symm
    | false =>
      cases rest with
      | nil => rw [collapse_singleton hc]
      | cons e rest =>
        cases he : isWhitespace e with
        | true =>
          rw [collapse_blank he] at ih
          rw [collapse_end hc he, List.mem_cons, List.mem_cons]
          refine or_congr Iff.rfl (Iff.trans ?_ ih)
          split
          · rename_i hnil
            rw [hnil]
          · rw [List.mem_cons, or_iff_right hspace]
        | false =>
          rw [collapse_word hc he, List.mem_cons, List.mem_cons]
          exact or_congr Iff.rfl ih

end Collapse

theorem truncate_of_le {value : List Char} {limit : ℕ} (h : value.length ≤ limit) :
    truncate value limit = value := by
  have hdrop : (value.drop limit).isEmpty = true := by
    rw [List.drop_eq_nil_of_le h]
    rfl
  rw [truncate, if_pos hdrop, List.take_of_length_le h]

theorem truncate_of_lt {value : List Char} {limit : ℕ} (h : limit < value.length) :
    truncate value limit = value.take limit ++ ['…'] := by
  have hdrop : ¬ (value.drop limit).isEmpty = true := by
    rw [List.isEmpty_iff, List.drop_eq_nil_iff]
    omega
  rw [truncate, if_neg hdrop]

end OpenMeet.CollapsedTexts
