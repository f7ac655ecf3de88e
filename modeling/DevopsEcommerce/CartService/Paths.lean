import DevopsEcommerce.CartService.Handlers

/-!
# The paths of the cart service

How the functions of `strings` take a path apart: where `cut` cuts, which paths have a given
user before their last part, and which ones a user and a product around `/items/`.
-/

namespace DevopsEcommerce.CartService

/-- `strings.HasPrefix` -/
def hasPrefix (path start : String) : Bool := start.toList.isPrefixOf path.toList

/-- `strings.HasSuffix` -/
def hasSuffix (path finish : String) : Bool := finish.toList.isSuffixOf path.toList

/-- `strings.Contains` -/
def contains (path part : String) : Bool := (cut part.toList path.toList).isSome

section
variable {separator s before after : List Char}

lemma cut_eq_some (h : cut separator s = some (before, after)) :
    s = before ++ separator ++ after := by
  induction s generalizing before with
  | nil =>
    unfold cut at h
    split at h
    · rename_i hempty
      obtain ⟨rfl, rfl⟩ := Prod.mk.inj (Option.some.inj h)
      rw [List.isEmpty_iff.mp hempty]
      rfl
    · cases h
  | cons c cs ih =>
    unfold cut at h
    split at h
    · rename_i hstarts
      obtain ⟨rfl, rfl⟩ := Prod.mk.inj (Option.some.inj h)
      exact (List.prefix_iff_eq_append.mp (List.isPrefixOf_iff_prefix.mp hstarts)).symm
    · obtain ⟨⟨a, b⟩, hrest, heq⟩ := Option.map_eq_some_iff.mp h
      obtain ⟨rfl, rfl⟩ := Prod.mk.inj heq
      rw [ih hrest]
      rfl

lemma isSome_cut_iff : (cut separator s).isSome = true ↔ separator <:+: s := by
  induction s with
  | nil =>
    unfold cut
    rw [List.infix_nil, ← List.isEmpty_iff]
    split <;> simp_all
  | cons c cs ih =>
    unfold cut
    rw [List.infix_cons_iff, ← ih, ← List.isPrefixOf_iff_prefix]
    split
    · rename_i hstarts
      exact iff_of_true rfl (.inl hstarts)
    · rename_i hstarts
      rw [Option.isSome_map, or_iff_right hstarts]

/-- The occurrence that is cut at is the first one. -/
lemma not_infix_of_cut (hne : separator ≠ []) (h : cut separator s = some (before, after)) :
    ¬ separator <:+: before ++ separator.dropLast := by
  induction s generalizing before with
  | nil =>
    unfold cut at h
    rw [if_neg (by simpa using hne)] at h
    cases h
  | cons c cs ih =>
    have hwhole := cut_eq_some h
    unfold cut at h
    split at h
    · obtain ⟨rfl, rfl⟩ := Prod.mk.inj (Option.some.inj h)
      intro hinfix
      have hlength := hinfix.length_le
      have hpos := List.length_pos_iff.mpr hne
      rw [List.nil_append, List.length_dropLast] at hlength
      omega
    · rename_i hstarts
      obtain ⟨⟨a, b⟩, hrest, heq⟩ := Option.map_eq_some_iff.mp h
      obtain ⟨rfl, rfl⟩ := Prod.mk.inj heq
      rw [List.cons_append, List.infix_cons_iff]
      rintro (hstart | hlater)
      · -- it would stand at the very beginning
        apply hstarts
        rw [List.isPrefixOf_iff_prefix, hwhole]
        refine hstart.trans ?_
        rw [← List.cons_append, List.append_assoc, List.prefix_append_right_inj]
        exact (List.dropLast_prefix separator).trans (List.prefix_append _ _)
      · exact ih hrest hlater

/-- No occurrence comes before the first one. -/
lemma length_le_of_first {before' after' : List Char}
    (h : before ++ separator ++ after = before' ++ separator ++ after')
    (hfirst : ¬ separator <:+: before' ++ separator.dropLast) (hne : separator ≠ []) :
    before'.length ≤ before.length := by
  by_contra hlt
  have hpos := List.length_pos_iff.mpr hne
  have hshort : before' ++ separator.dropLast <+: before' ++ separator ++ after' := by
    rw [List.append_assoc, List.prefix_append_right_inj]
    exact (List.dropLast_prefix separator).trans (List.prefix_append _ _)
  have hstarts : before ++ separator <+: before' ++ separator.dropLast := by
    apply List.prefix_of_prefix_length_le (List.prefix_append _ after) (h ▸ hshort)
    rw [List.length_append, List.length_append, List.length_dropLast]
    omega
  exact hfirst ((List.suffix_append before separator).isInfix.trans hstarts.isInfix)

/-- It is cut where the separator stands first. -/
lemma cut_append (hne : separator ≠ []) (h : ¬ separator <:+: before ++ separator.dropLast) :
    cut separator (before ++ separator ++ after) = some (before, after) := by
  have hcut : (cut separator (before ++ separator ++ after)).isSome = true :=
    isSome_cut_iff.mpr ⟨before, after, rfl⟩
  obtain ⟨⟨a, b⟩, hab⟩ := Option.isSome_iff_exists.mp hcut
  have heq := cut_eq_some hab
  have hlength : before.length = a.length :=
    le_antisymm (length_le_of_first heq.symm h hne)
      (length_le_of_first heq (not_infix_of_cut hne hab) hne)
  rw [List.append_assoc, List.append_assoc] at heq
  obtain ⟨rfl, hrest⟩ := List.append_inj heq hlength
  rw [hab, List.append_cancel_left hrest]

lemma trimPrefix_append (start rest : List Char) : trimPrefix (start ++ rest) start = rest := by
  unfold trimPrefix
  rw [if_pos (List.isPrefixOf_iff_prefix.mpr (List.prefix_append start rest)), List.drop_left]

lemma trimSuffix_append (before finish : List Char) :
    trimSuffix (before ++ finish) finish = before := by
  unfold trimSuffix
  rw [if_pos (List.isSuffixOf_iff_suffix.mpr (List.suffix_append before finish)),
    List.length_append, Nat.add_sub_cancel, List.take_left]

/-- What has lost a suffix has ended in it. -/
lemma eq_append_of_trimSuffix {finish : List Char} (h : trimSuffix s finish ≠ s) :
    s = trimSuffix s finish ++ finish := by
  unfold trimSuffix at h ⊢
  split
  · rename_i hsuffix
    exact (List.suffix_iff_eq_append.mp (List.isSuffixOf_iff_suffix.mp hsuffix)).symm
  · rename_i hsuffix
    rw [if_neg hsuffix] at h
    exact absurd rfl h

end

section
variable {path finish user u p w tail : String}

lemma trimmedPath_append (rest : String) : trimmedPath ("/api/cart/" ++ rest) = rest.toList := by
  unfold trimmedPath
  rw [String.toList_append, trimPrefix_append]

lemma hasPrefix_append (rest : String) : hasPrefix ("/api/cart/" ++ rest) "/api/cart/" = true := by
  unfold hasPrefix
  rw [String.toList_append, List.isPrefixOf_iff_prefix]
  exact List.prefix_append _ _

lemma hasSuffix_append (before finish : String) : hasSuffix (before ++ finish) finish = true := by
  unfold hasSuffix
  rw [String.toList_append, List.isSuffixOf_iff_suffix]
  exact List.suffix_append _ _

/-- A path under `/api/cart/`. -/
lemma eq_append_of_hasPrefix (h : hasPrefix path "/api/cart/" = true) :
    path = "/api/cart/" ++ String.ofList (trimmedPath path) := by
  unfold hasPrefix at h
  obtain ⟨rest, hrest⟩ := List.isPrefixOf_iff_prefix.mp h
  have hpath : path = "/api/cart/" ++ String.ofList rest := by
    have hlist : (String.ofList rest).toList = rest := String.toList_ofList
    apply String.toList_inj.mp
    rw [String.toList_append, hlist]
    exact hrest.symm
  rw [hpath, trimmedPath_append, String.toList_ofList]

lemma userBefore_append (hw : w ≠ "") (hfinish : finish ≠ "") :
    userBefore finish ("/api/cart/" ++ w ++ finish) = some w := by
  unfold userBefore
  rw [String.append_assoc, trimmedPath_append, String.toList_append, trimSuffix_append]
  have hne : ¬ (w.toList = [] ∨ w.toList = w.toList ++ finish.toList) := by
    rintro (hempty | heq)
    · exact hw (String.toList_eq_nil_iff.mp hempty)
    · exact hfinish (String.toList_eq_nil_iff.mp (List.self_eq_append_right.mp heq))
  simp only [if_neg hne, String.ofList_toList]

lemma ne_empty_of_userBefore (h : userBefore finish path = some user) : user ≠ "" := by
  unfold userBefore at h
  simp only at h
  split at h
  · cases h
  · rename_i hne
    obtain rfl := Option.some.inj h
    intro hempty
    exact hne (.inl (String.ofList_eq_empty_iff.mp hempty))

/-- A path with a user before its last part. -/
lemma eq_append_of_userBefore (hstarts : hasPrefix path "/api/cart/" = true)
    (h : userBefore finish path = some user) : path = "/api/cart/" ++ user ++ finish := by
  unfold userBefore at h
  simp only at h
  split at h
  · cases h
  · rename_i hne
    obtain rfl := Option.some.inj h
    have htrimmed := eq_append_of_trimSuffix fun heq => hne (.inr heq)
    have hrest : String.ofList (trimmedPath path) =
        String.ofList (trimSuffix (trimmedPath path) finish.toList) ++ finish := by
      apply String.toList_inj.mp
      rw [String.toList_append, String.toList_ofList, String.toList_ofList]
      exact htrimmed
    rw [String.append_assoc, ← hrest]
    exact eq_append_of_hasPrefix hstarts

lemma splitItems_append (hu : u ≠ "") (hp : p ≠ "")
    (hfirst : contains (u ++ "/items") "/items/" = false)
    (honly : contains p "/items/" = false) :
    splitItems ("/api/cart/" ++ u ++ "/items/" ++ p) = some (u, p) := by
  have hcut : cut "/items/".toList (trimmedPath ("/api/cart/" ++ u ++ "/items/" ++ p)) =
      some (u.toList, p.toList) := by
    rw [String.append_assoc, String.append_assoc, trimmedPath_append, String.toList_append,
      String.toList_append, ← List.append_assoc]
    apply cut_append (by decide)
    rw [← isSome_cut_iff]
    unfold contains at hfirst
    rw [String.toList_append] at hfirst
    rw [Bool.not_eq_true]
    exact hfirst
  unfold splitItems
  simp only [hcut]
  have hne : ¬ (u.toList = [] ∨ p.toList = [] ∨
      (cut "/items/".toList p.toList).isSome = true) := by
    rintro (hempty | hempty | htwice)
    · exact hu (String.toList_eq_nil_iff.mp hempty)
    · exact hp (String.toList_eq_nil_iff.mp hempty)
    · unfold contains at honly
      rw [honly] at htwice
      cases htwice
  rw [if_neg hne, String.ofList_toList, String.ofList_toList]

/-- A path with a user and a product around its only `/items/`. -/
lemma eq_append_of_splitItems (hstarts : hasPrefix path "/api/cart/" = true)
    (h : splitItems path = some (u, p)) :
    u ≠ "" ∧ p ≠ "" ∧ contains (u ++ "/items") "/items/" = false ∧
      contains p "/items/" = false ∧ path = "/api/cart/" ++ u ++ "/items/" ++ p := by
  unfold splitItems at h
  split at h
  · cases h
  · rename_i before after hcut
    split at h
    · cases h
    · rename_i hne
      obtain ⟨rfl, rfl⟩ := Prod.mk.inj (Option.some.inj h)
      rw [not_or, not_or, Bool.not_eq_true] at hne
      obtain ⟨hbefore, hafter, honly⟩ := hne
      have hu : (String.ofList before).toList = before := String.toList_ofList
      have hp : (String.ofList after).toList = after := String.toList_ofList
      refine ⟨?_, ?_, ?_, ?_, ?_⟩
      · intro hempty
        exact hbefore (String.ofList_eq_empty_iff.mp hempty)
      · intro hempty
        exact hafter (String.ofList_eq_empty_iff.mp hempty)
      · -- the cut is at the first `/items/`
        have hfirst := not_infix_of_cut (by decide) hcut
        rw [← isSome_cut_iff, Bool.not_eq_true] at hfirst
        unfold contains
        rw [String.toList_append, hu]
        exact hfirst
      · unfold contains
        rw [hp]
        exact honly
      · rw [String.append_assoc, String.append_assoc]
        refine (eq_append_of_hasPrefix hstarts).trans (congrArg ("/api/cart/" ++ ·) ?_)
        apply String.toList_inj.mp
        rw [String.toList_append, String.toList_append, hu, hp, ← List.append_assoc]
        exact String.toList_ofList.trans (cut_eq_some hcut)

lemma extractUserID_append (hu : '/' ∉ u.toList) (tail : String) :
    extractUserID ("/api/cart/" ++ u ++ "/" ++ tail) = u := by
  have hslash : ("/" ++ tail).toList = '/' :: tail.toList := String.toList_append
  have hbefore : ∀ c ∈ u.toList, decide (c ≠ '/') = true := by
    intro c hc
    rw [decide_eq_true_iff]
    rintro rfl
    exact hu hc
  unfold extractUserID
  rw [String.append_assoc, String.append_assoc, trimmedPath_append, String.toList_append, hslash,
    List.takeWhile_append_of_pos hbefore,
    List.takeWhile_cons_of_neg (by decide), List.append_nil, String.ofList_toList]

lemma extractUserID_segment (hu : '/' ∉ u.toList) : extractUserID ("/api/cart/" ++ u) = u := by
  have hall : ∀ c ∈ u.toList, decide (c ≠ '/') = true := by
    intro c hc
    rw [decide_eq_true_iff]
    rintro rfl
    exact hu hc
  unfold extractUserID
  rw [trimmedPath_append, List.takeWhile_eq_self_iff.mpr hall, String.ofList_toList]

/-- The first part of a path, and what is left of it. -/
lemma eq_append_of_extractUserID (hstarts : hasPrefix path "/api/cart/" = true) :
    '/' ∉ (extractUserID path).toList ∧
      (path = "/api/cart/" ++ extractUserID path ∨
        ∃ tail, path = "/api/cart/" ++ extractUserID path ++ "/" ++ tail) := by
  have hpath := eq_append_of_hasPrefix hstarts
  have hsplit := List.takeWhile_append_dropWhile
    (p := fun c => decide (c ≠ '/')) (l := trimmedPath path)
  refine ⟨?_, ?_⟩
  · unfold extractUserID
    rw [String.toList_ofList]
    intro hmem
    have hne := List.mem_takeWhile_imp hmem
    exact absurd hne (by decide)
  · cases hrest : (trimmedPath path).dropWhile fun c => decide (c ≠ '/') with
    | nil =>
      -- the path ends with the user
      rw [hrest, List.append_nil] at hsplit
      left
      unfold extractUserID
      rw [hsplit]
      exact hpath
    | cons c cs =>
      have hslash : c = '/' := by
        have hhead := List.head?_dropWhile_not (fun c => decide (c ≠ '/')) (trimmedPath path)
        rw [hrest] at hhead
        simpa using hhead
      subst hslash
      refine .inr ⟨String.ofList cs, ?_⟩
      rw [String.append_assoc, String.append_assoc]
      refine hpath.trans (congrArg ("/api/cart/" ++ ·) ?_)
      have hlist : (String.ofList cs).toList = cs := String.toList_ofList
      apply String.toList_inj.mp
      unfold extractUserID
      rw [String.toList_append, String.toList_append, hlist, String.toList_ofList,
        String.toList_ofList]
      exact hsplit.symm.trans (congrArg _ hrest)

/-! ## Slashes -/

/-- `/items/` has two slashes. -/
lemma contains_items_of_count (h : u.toList.count '/' < 2) : contains u "/items/" = false := by
  unfold contains
  rw [← Bool.not_eq_true, isSome_cut_iff]
  intro hinfix
  have hcount : "/items/".toList.count '/' ≤ u.toList.count '/' := hinfix.sublist.count_le '/'
  have htwo : "/items/".toList.count '/' = 2 := by decide
  omega

lemma contains_items_append (rest : String) :
    contains ("/api/cart/" ++ rest) "/items/" = contains ("/" ++ rest) "/items/" := by
  unfold contains
  rw [String.toList_append, String.toList_append]
  simp [cut, List.isPrefixOf]

lemma contains_items_segment (hu : '/' ∉ u.toList) :
    contains ("/api/cart/" ++ u) "/items/" = false := by
  rw [contains_items_append]
  apply contains_items_of_count
  have hslash : ("/" ++ u).toList = '/' :: u.toList := String.toList_append
  rw [hslash, List.count_cons_self, List.count_eq_zero.mpr hu]
  decide

/-- Only the segment `count` makes a path of one segment end in `/count`. -/
lemma eq_count_of_hasSuffix (hu : '/' ∉ u.toList)
    (h : hasSuffix ("/api/cart/" ++ u) "/count" = true) : u = "count" := by
  have hpath : ("/api/cart/" ++ u).toList = "/api/cart".toList ++ '/' :: u.toList :=
    String.toList_append
  unfold hasSuffix at h
  rw [List.isSuffixOf_iff_suffix, hpath] at h
  -- both `/count` and `/u` are the end of the path, so one of them is the end of the other
  rcases List.suffix_or_suffix_of_suffix h (List.suffix_append _ _) with hends | hends
  · rcases List.suffix_cons_iff.mp hends with heq | hinside
    · exact String.toList_inj.mp (List.cons.inj heq).2.symm
    · exact absurd (hinside.mem List.mem_cons_self) hu
  · rcases List.suffix_cons_iff.mp hends with heq | hinside
    · exact String.toList_inj.mp (List.cons.inj heq).2
    · exact absurd (hinside.mem List.mem_cons_self) (by decide)

end

end DevopsEcommerce.CartService
