import DevopsEcommerce.Json.Text
import Mathlib.Data.List.TakeWhile

/-!
# What is printed is parsed

`parse_print`: for every printer whose escapes can be undone, the parser gives back the value
that was printed.
-/

namespace Json

variable {escape : Char → List Char}

/-- The escapes of a character are read as that character. -/
def Unescapes (escape : Char → List Char) : Prop :=
  ∀ c rest, readChar (escape c ++ rest) = some (c, rest)

/-! ## Strings -/

lemma hexDigit_digitChar : ∀ d < 16, hexDigit d.digitChar = some d := by decide

lemma readHex_digitChar {n : ℕ} (hn : n < 65536) (rest : List Char) :
    readHex ((n / 4096).digitChar :: (n / 256 % 16).digitChar :: (n / 16 % 16).digitChar ::
      (n % 16).digitChar :: rest) = some (n, rest) := by
  unfold readHex
  simp only [hexDigit_digitChar (n / 4096) (by omega), hexDigit_digitChar (n / 256 % 16) (by omega),
    hexDigit_digitChar (n / 16 % 16) (by omega), hexDigit_digitChar (n % 16) (by omega)]
  congr 2
  omega

/-- A character is no surrogate, so that its escape stands for itself. -/
lemma readChar_hexEscape {c : Char} (hc : c.toNat < 65536) (rest : List Char) :
    readChar (hexEscape c ++ rest) = some (c, rest) := by
  have hread := readHex_digitChar hc rest
  have hscalar : c.toNat < 0xD800 ∨ 0xE000 ≤ c.toNat := by
    rcases c.valid with h | h
    · exact .inl h
    · exact .inr h.1
  have hescape : readChar (hexEscape c ++ rest) = readUnicode ((c.toNat / 4096).digitChar ::
    (c.toNat / 256 % 16).digitChar :: (c.toNat / 16 % 16).digitChar ::
      (c.toNat % 16).digitChar :: rest) := rfl
  rw [hescape, readUnicode, hread, Option.map_some]
  simp only [if_pos hscalar, Char.ofNat_toNat]

lemma Unescapes.escape_ne_nil (h : Unescapes escape) (c : Char) : escape c ≠ [] := by
  intro hnil
  have := h c []
  rw [hnil] at this
  cases this

/-- No escape looks like the closing quote. -/
lemma Unescapes.head?_ne (h : Unescapes escape) (c : Char) (rest : List Char) :
    (escape c ++ rest).head? ≠ some '"' := by
  intro hquote
  obtain ⟨tail, htail⟩ := List.head?_eq_some_iff.mp hquote
  have := h c rest
  rw [htail] at this
  cases this

lemma readChars_escape (h : Unescapes escape) (cs : List Char) {n : ℕ} (hn : cs.length < n)
    (rest : List Char) :
    readChars n (cs.flatMap escape ++ '"' :: rest) = some (cs, rest) := by
  induction cs generalizing n with
  | nil =>
    match n with
    | n + 1 => rfl
  | cons c cs ih =>
    match n with
    | n + 1 =>
      rw [List.flatMap_cons, List.append_assoc, readChars, if_neg (h.head?_ne c _), h,
        Option.bind_some]
      show (readChars n (cs.flatMap escape ++ '"' :: rest)).map _ = _
      rw [ih (by simpa using hn)]
      rfl

lemma length_le_flatMap_escape (h : Unescapes escape) (cs : List Char) :
    cs.length ≤ (cs.flatMap escape).length := by
  induction cs with
  | nil => exact Nat.le_refl 0
  | cons c cs ih =>
    have := List.length_pos_iff.mpr (h.escape_ne_nil c)
    rw [List.flatMap_cons, List.length_append, List.length_cons]
    omega

/-- The rest of a printed string, after its opening quote. -/
lemma readString_escape (h : Unescapes escape) (s : String) (rest : List Char) :
    readString (s.toList.flatMap escape ++ '"' :: rest) = some (s, rest) := by
  unfold readString
  rw [readChars_escape h]
  · simp only [Option.map_some, String.ofList_toList]
  · have := length_le_flatMap_escape h s.toList
    rw [List.length_append, List.length_cons]
    omega

lemma readName_print (h : Unescapes escape) (k : String) (rest : List Char) :
    readName (printString escape k ++ ':' :: rest) = some (k, rest) := by
  have hopen : skipSpace (printString escape k ++ ':' :: rest) =
      '"' :: (k.toList.flatMap escape ++ '"' :: ':' :: rest) := by
    unfold printString skipSpace
    rw [List.cons_append, List.cons_append, List.append_assoc]
    rfl
  unfold readName
  rw [hopen]
  simp only [readString_escape h, Option.bind_some]
  rfl

/-! ## Numbers -/

/-- The text does not go on with a character that could belong to a number. -/
def Delimited (rest : List Char) : Prop := ∀ c ∈ rest.head?, isNumberChar c = false

lemma NumberLiteral.all (n : NumberLiteral) : ∀ c ∈ n.chars, isNumberChar c = true := by
  have h := n.valid
  unfold isNumber at h
  simp only [Bool.and_eq_true] at h
  exact List.all_eq_true.mp h.1.1

lemma NumberLiteral.ne_nil (n : NumberLiteral) : n.chars ≠ [] := by
  intro h
  have hvalid := n.valid
  rw [h] at hvalid
  cases hvalid

lemma readNumber_print (n : NumberLiteral) {rest : List Char} (hrest : Delimited rest) :
    readNumber (n.chars ++ rest) = some (number n, rest) := by
  have htake : (n.chars ++ rest).takeWhile isNumberChar = n.chars := by
    rw [List.takeWhile_append_of_pos n.all]
    cases rest with
    | nil => exact List.append_nil _
    | cons c cs => rw [List.takeWhile_cons_of_neg (by simp [hrest c rfl]), List.append_nil]
  have hdrop : (n.chars ++ rest).dropWhile isNumberChar = rest := by
    rw [List.dropWhile_append_of_pos n.all]
    cases rest with
    | nil => rfl
    | cons c cs => rw [List.dropWhile_cons_of_neg (by simp [hrest c rfl])]
  unfold readNumber
  simp only [htake, hdrop]
  rw [dif_pos n.valid]

/-! ## Values -/

/-- A printed value starts with none of the characters that the parser looks for before it. -/
structure StartsValue (c : Char) : Prop where
  not_space : isSpace c = false
  not_bracket : c ≠ ']'
  not_brace : c ≠ '}'

lemma startsValue_of_isNumberChar {c : Char} (h : isNumberChar c = true) : StartsValue c := by
  refine ⟨Bool.eq_false_iff.mpr fun hspace => ?_, ?_, ?_⟩
  · unfold isSpace at hspace
    simp only [Bool.or_eq_true, decide_eq_true_eq] at hspace
    rcases hspace with ((rfl | rfl) | rfl) | rfl <;> exact absurd h (by decide)
  · rintro rfl
    exact absurd h (by decide)
  · rintro rfl
    exact absurd h (by decide)

lemma print_eq_cons (escape : Char → List Char) (v : Json) :
    ∃ c cs, print escape v = c :: cs ∧ StartsValue c := by
  match v with
  | null => exact ⟨_, _, by rw [print], by decide, by decide, by decide⟩
  | bool true => exact ⟨_, _, by rw [print], by decide, by decide, by decide⟩
  | bool false => exact ⟨_, _, by rw [print], by decide, by decide, by decide⟩
  | string s =>
    exact ⟨_, _, by rw [print, printString, List.cons_append], by decide, by decide, by decide⟩
  | array [] => exact ⟨_, _, by rw [print], by decide, by decide, by decide⟩
  | array (v :: vs) => exact ⟨_, _, by rw [print], by decide, by decide, by decide⟩
  | object [] => exact ⟨_, _, by rw [print], by decide, by decide, by decide⟩
  | object ((k, v) :: ms) => exact ⟨_, _, by rw [print], by decide, by decide, by decide⟩
  | number n =>
    cases hn : n.chars with
    | nil => exact absurd hn n.ne_nil
    | cons c cs =>
      exact ⟨c, cs, by rw [print, hn], startsValue_of_isNumberChar (n.all c (by simp [hn]))⟩

lemma skipSpace_print (escape : Char → List Char) (v : Json) (rest : List Char) :
    skipSpace (print escape v ++ rest) = print escape v ++ rest := by
  obtain ⟨c, cs, hprint, hc⟩ := print_eq_cons escape v
  unfold skipSpace
  rw [hprint, List.cons_append, List.dropWhile_cons_of_neg (by simp [hc.not_space])]

lemma head?_print_ne (escape : Char → List Char) (v : Json) (rest : List Char) :
    (print escape v ++ rest).head? ≠ some ']' := by
  obtain ⟨c, cs, hprint, hc⟩ := print_eq_cons escape v
  rw [hprint]
  simpa using hc.not_bracket

lemma delimited_printItems (vs : List Json) (rest : List Char) :
    Delimited (printItems escape vs ++ rest) := by
  cases vs <;> rw [printItems] <;> exact fun c hc => by cases hc; decide

lemma delimited_printMembers (ms : List (String × Json)) (rest : List Char) :
    Delimited (printMembers escape ms ++ rest) := by
  rcases ms with - | ⟨⟨k, v⟩, ms⟩ <;> rw [printMembers] <;> exact fun c hc => by cases hc; decide

/-- A value that starts like a number is read as one. -/
lemma parseValue_number (n : ℕ) (l : NumberLiteral) {rest : List Char} (hrest : Delimited rest) :
    parseValue (n + 1) (l.chars ++ rest) = some (number l, rest) := by
  rw [← readNumber_print l hrest]
  cases hl : l.chars with
  | nil => exact absurd hl l.ne_nil
  | cons c cs =>
    have hc : isNumberChar c = true := l.all c (by simp [hl])
    have hstart : skipSpace (c :: cs ++ rest) = c :: (cs ++ rest) := by
      unfold skipSpace
      rw [List.cons_append, List.dropWhile_cons_of_neg]
      simp [(startsValue_of_isNumberChar hc).not_space]
    have hne : ∀ d, isNumberChar d = false → c ≠ d := by
      rintro d hd rfl
      rw [hc] at hd
      cases hd
    -- none of the other cases applies
    rw [parseValue, hstart]
    simp only [hne '"' (by decide), hne '[' (by decide), hne '{' (by decide), hne 'n' (by decide),
      hne 't' (by decide), hne 'f' (by decide), if_false]
    rfl

lemma parseValue_brace (n : ℕ) (rest : List Char) :
    parseValue (n + 1) ('{' :: rest) =
      if (skipSpace rest).head? = some '}' then some (object [], (skipSpace rest).tail)
      else
        (readName rest).bind fun kr =>
          (parseValue n kr.2).bind fun vr =>
            (parseMembers n vr.2).map fun mr => (object ((kr.1, vr.1) :: mr.1), mr.2) := rfl

mutual

-- The induction follows the printed value; the fuel covers two calls for each character.
theorem parseValue_print (h : Unescapes escape) (v : Json) (n : ℕ) (rest : List Char)
    (hn : 2 * (print escape v).length ≤ n) (hrest : Delimited rest) :
    parseValue n (print escape v ++ rest) = some (v, rest) := by
  match n with
  | 0 =>
    -- there is fuel for a text that is not empty
    obtain ⟨c, cs, hprint, -⟩ := print_eq_cons escape v
    rw [hprint, List.length_cons] at hn
    omega
  | n + 1 =>
    match v with
    | null => rfl
    | bool true => rfl
    | bool false => rfl
    | number l =>
      rw [print]
      exact parseValue_number n l hrest
    | string s =>
      have hread := readString_escape h s rest
      rw [print, printString, List.cons_append, List.cons_append, List.append_assoc]
      show (readString _).map _ = _
      rw [List.singleton_append, hread]
      rfl
    | array [] => rfl
    | array (v :: vs) =>
      rw [print, List.length_cons, List.length_append] at hn
      have hv := parseValue_print h v n (printItems escape vs ++ rest) (by omega)
        (delimited_printItems vs rest)
      have hvs := parseItems_print h vs n rest (by omega)
      -- after `[` the parser looks for `]` first
      have hopen := skipSpace_print escape v (printItems escape vs ++ rest)
      have hhead := head?_print_ne escape v (printItems escape vs ++ rest)
      rw [print, List.cons_append, List.append_assoc]
      show (if (skipSpace _).head? = some ']' then _ else _) = _
      rw [hopen, if_neg hhead, hv, Option.bind_some]
      show (parseItems _ _).map _ = _
      rw [hvs]
      rfl
    | object [] => rfl
    | object ((k, v) :: ms) =>
      rw [print, List.length_cons, List.length_append, List.length_cons, List.length_append] at hn
      have hname := readName_print h k (print escape v ++ (printMembers escape ms ++ rest))
      have hv := parseValue_print h v n (printMembers escape ms ++ rest) (by omega)
        (delimited_printMembers ms rest)
      have hms := parseMembers_print h ms n rest (by omega)
      rw [print, List.cons_append, List.append_assoc, List.cons_append, List.append_assoc,
        parseValue_brace, if_neg, hname, Option.bind_some, hv, Option.bind_some, hms]
      · rfl
      · rw [printString, List.cons_append, List.cons_append]
        exact fun h => by cases h

theorem parseItems_print (h : Unescapes escape) (vs : List Json) (n : ℕ) (rest : List Char)
    (hn : 2 * (printItems escape vs).length ≤ n) :
    parseItems n (printItems escape vs ++ rest) = some (vs, rest) := by
  match n, vs with
  | 0, [] => rw [printItems] at hn; cases hn
  | 0, v :: vs => rw [printItems, List.length_cons] at hn; omega
  | n + 1, [] => rfl
  | n + 1, v :: vs =>
    rw [printItems, List.length_cons, List.length_append] at hn
    have hv := parseValue_print h v n (printItems escape vs ++ rest) (by omega)
      (delimited_printItems vs rest)
    have hvs := parseItems_print h vs n rest (by omega)
    rw [printItems, List.cons_append, List.append_assoc]
    show (parseValue _ _).bind _ = _
    rw [hv, Option.bind_some]
    show (parseItems _ _).map _ = _
    rw [hvs]
    rfl

theorem parseMembers_print (h : Unescapes escape) (ms : List (String × Json)) (n : ℕ)
    (rest : List Char) (hn : 2 * (printMembers escape ms).length ≤ n) :
    parseMembers n (printMembers escape ms ++ rest) = some (ms, rest) := by
  match n, ms with
  | 0, [] => rw [printMembers] at hn; cases hn
  | 0, (k, v) :: ms => rw [printMembers, List.length_cons] at hn; omega
  | n + 1, [] => rfl
  | n + 1, (k, v) :: ms =>
    rw [printMembers, List.length_cons, List.length_append, List.length_cons,
      List.length_append] at hn
    have hname := readName_print h k (print escape v ++ (printMembers escape ms ++ rest))
    have hv := parseValue_print h v n (printMembers escape ms ++ rest) (by omega)
      (delimited_printMembers ms rest)
    have hms := parseMembers_print h ms n rest (by omega)
    rw [printMembers, List.cons_append, List.append_assoc, List.cons_append, List.append_assoc]
    show (readName _).bind _ = _
    rw [hname, Option.bind_some]
    show (parseValue _ _).bind _ = _
    rw [hv, Option.bind_some]
    show (parseMembers _ _).map _ = _
    rw [hms]
    rfl

end

/-- **Round trip.** The text of a value is parsed as that value. -/
theorem parse_print (h : Unescapes escape) (v : Json) : parse (print escape v) = some v := by
  have hv := parseValue_print h v (2 * (print escape v).length) [] (Nat.le_refl _)
    fun c hc => by cases hc
  rw [List.append_nil] at hv
  unfold parse
  rw [hv]
  rfl

end Json
