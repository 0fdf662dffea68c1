import Mathlib.Data.List.Infix

/-!
The patterns of LIKE. A percent sign stands for any text, an underscore for any
one character, and a backslash takes the character after it as it is. A text
whose special characters are escaped is matched literally.
-/
namespace OpenMeet.LikePatterns

inductive Token
  | any
  | one
  | char (c : Char)
  deriving DecidableEq

/-- A pattern may not end with a lone backslash. -/
def parse : List Char → Option (List Token)
  | [] => some []
  | '\\' :: c :: rest => (parse rest).map (.char c :: ·)
  | ['\\'] => none
  | '%' :: rest => (parse rest).map (.any :: ·)
  | '_' :: rest => (parse rest).map (.one :: ·)
  | c :: rest => (parse rest).map (.char c :: ·)

def matchText : List Token → List Char → Bool
  | [], text => text.isEmpty
  | .any :: rest, text => text.tails.any fun suffix => matchText rest suffix
  | .one :: rest, text => (text.head?.isSome && matchText rest text.tail)
  | .char c :: rest, text => text.head? = some c && matchText rest text.tail

def like (pattern text : String) : Bool :=
  match parse pattern.toList with
  | some tokens => matchText tokens text.toList
  | none => false

/-- Upper and lower case are folded in the pattern and in the text. -/
def ilike (lower : String → String) (pattern text : String) : Bool :=
  like (lower pattern) (lower text)

def special : List Char := ['\\', '%', '_']

/-- The characters as a pattern that means them literally. -/
def escape (text : List Char) : List Char :=
  text.flatMap fun c => if c ∈ special then ['\\', c] else [c]

section Matching

variable {tokens : List Token} {text literal : List Char}

theorem matchText_any_iff :
    matchText (.any :: tokens) text = true ↔ ∃ suffix, suffix <:+ text ∧
      matchText tokens suffix = true := by
  simp [matchText]

theorem matchText_any : matchText [.any] text = true :=
  matchText_any_iff.mpr ⟨[], List.nil_suffix, rfl⟩

theorem matchText_literal_iff :
    matchText (literal.map .char ++ tokens) text = true ↔ ∃ rest, text = literal ++ rest ∧
      matchText tokens rest = true := by
  induction literal generalizing text with
  | nil => simp
  | cons c literal ih =>
    simp only [List.map_cons, List.cons_append, matchText, Bool.and_eq_true, decide_eq_true_eq, ih]
    constructor
    · intro h
      obtain ⟨hhead, rest, htail, hmatch⟩ := h
      cases text with
      | nil => cases hhead
      | cons d text =>
        cases hhead
        exact ⟨rest, congrArg _ htail, hmatch⟩
    · intro h
      obtain ⟨rest, rfl, hmatch⟩ := h
      exact ⟨rfl, rest, rfl, hmatch⟩

/-- A literal before a percent sign asks for a prefix. -/
theorem matchText_prefix_iff :
    matchText (literal.map .char ++ [.any]) text = true ↔ literal <+: text := by
  rw [matchText_literal_iff]
  constructor
  · intro h
    obtain ⟨rest, htext, -⟩ := h
    exact ⟨rest, htext.symm⟩
  · intro h
    obtain ⟨rest, htext⟩ := h
    exact ⟨rest, htext.symm, matchText_any⟩

/-- A literal between percent signs asks for an infix. -/
theorem matchText_infix_iff :
    matchText (.any :: (literal.map .char ++ [.any])) text = true ↔ literal <:+: text := by
  rw [matchText_any_iff, List.infix_iff_prefix_suffix]
  simp only [matchText_prefix_iff, and_comm]

end Matching

section Parsing

theorem parse_cons_literal {c : Char} (hc : c ∉ special) (rest : List Char) :
    parse (c :: rest) = (parse rest).map (.char c :: ·) := by
  simp only [special, List.mem_cons, List.not_mem_nil, or_false, not_or] at hc
  obtain ⟨hbackslash, hpercent, hunderscore⟩ := hc
  rw [parse.eq_def]
  split
  all_goals simp_all

theorem parse_append_literal {literal : List Char} (hliteral : ∀ c ∈ literal, c ∉ special)
    (rest : List Char) :
    parse (literal ++ rest) = (parse rest).map (literal.map .char ++ ·) := by
  induction literal with
  | nil => simp
  | cons c literal ih =>
    have hrest := ih fun d hd => hliteral d (List.mem_cons_of_mem c hd)
    rw [List.cons_append, parse_cons_literal (hliteral c List.mem_cons_self), hrest,
      Option.map_map]
    rfl

theorem parse_escape_append (text rest : List Char) :
    parse (escape text ++ rest) = (parse rest).map (text.map .char ++ ·) := by
  induction text with
  | nil => simp [escape]
  | cons c text ih =>
    have hsplit : escape (c :: text) ++ rest =
        (if c ∈ special then ['\\', c] else [c]) ++ (escape text ++ rest) := by
      simp [escape]
    rw [hsplit]
    split
    · rw [List.cons_append, List.singleton_append, parse, ih, Option.map_map]
      rfl
    · rename_i hc
      rw [List.singleton_append, parse_cons_literal hc, ih, Option.map_map]
      rfl

variable {pattern : String} {literal : List Char} (text : String)

/-- An escaped text between percent signs is looked for as it is. -/
theorem like_escape_iff {needle : List Char}
    (hpattern : pattern.toList = '%' :: (escape needle ++ ['%'])) :
    like pattern text = true ↔ needle <:+: text.toList := by
  have hparse : parse pattern.toList = some (.any :: (needle.map .char ++ [.any])) := by
    rw [hpattern, parse, parse_escape_append]
    rfl
  rw [like, hparse]
  exact matchText_infix_iff

theorem like_prefix_iff (hliteral : (literal.all fun c => c ∉ special) = true)
    (hpattern : pattern.toList = literal ++ ['%']) :
    like pattern text = true ↔ literal <+: text.toList := by
  have hparse : parse pattern.toList = some (literal.map .char ++ [.any]) := by
    have hplain : ∀ c ∈ literal, c ∉ special := fun c hc =>
      of_decide_eq_true (List.all_eq_true.mp hliteral c hc)
    rw [hpattern, parse_append_literal hplain]
    rfl
  rw [like, hparse]
  exact matchText_prefix_iff

end Parsing

end OpenMeet.LikePatterns
