/-! # Text

Sources, paths and messages are texts: lists of characters. A text is
measured in the bytes of its UTF-8 form, split at a separator character and
searched for a word. -/

namespace MemberOrder

/-- A text is the list of its characters. -/
abbrev Text := List Char

instance : Coe String Text := ⟨String.toList⟩

namespace Text

/-- The number of bytes in the UTF-8 form of a text. -/
def byteLength (t : Text) : Nat := t.foldr (fun c n => c.utf8Size + n) 0

@[simp] theorem byteLength_nil : byteLength [] = 0 := rfl

@[simp] theorem byteLength_cons (c : Char) (t : Text) :
    byteLength (c :: t) = c.utf8Size + byteLength t := rfl

@[simp] theorem byteLength_append (t u : Text) :
    byteLength (t ++ u) = byteLength t + byteLength u := by
  induction t with
  | nil => simp
  | cons c t ih => rw [List.cons_append, byteLength_cons, byteLength_cons, ih, Nat.add_assoc]

/-! ## Splitting and joining -/

/-- Put a character in front of the first piece. -/
def glue (c : Char) : List Text → List Text
  | [] => [[c]]
  | p :: ps => (c :: p) :: ps

/-- The pieces of a text between the occurrences of a separator. There is
always at least one piece, and the separator occurs in none of them. -/
def pieces (sep : Char) (t : Text) : List Text :=
  t.foldr (fun c ps => if c = sep then [] :: ps else glue c ps) [[]]

@[simp] theorem pieces_nil (sep : Char) : pieces sep [] = [[]] := rfl

theorem pieces_cons (sep c : Char) (t : Text) :
    pieces sep (c :: t) = if c = sep then [] :: pieces sep t else glue c (pieces sep t) := rfl

theorem glue_ne_nil (c : Char) (ps : List Text) : glue c ps ≠ [] := by
  cases ps <;> simp [glue]

theorem pieces_ne_nil (sep : Char) (t : Text) : pieces sep t ≠ [] := by
  cases t with
  | nil => simp
  | cons c t =>
    rw [pieces_cons]
    split
    · simp
    · exact glue_ne_nil c _

/-- The separator occurs in no piece. -/
theorem not_mem_of_mem_pieces {sep : Char} {t p : Text} (h : p ∈ pieces sep t) : sep ∉ p := by
  induction t generalizing p with
  | nil => simp_all
  | cons c t ih =>
    rw [pieces_cons] at h
    split at h
    · rcases List.mem_cons.mp h with rfl | h
      · simp
      · exact ih h
    · rename_i hc
      -- The first piece grows by a character that is no separator.
      cases hps : pieces sep t with
      | nil => exact absurd hps (pieces_ne_nil sep t)
      | cons q qs =>
        rw [hps] at h ih
        rcases List.mem_cons.mp h with rfl | h
        · have hq : sep ∉ q := ih List.mem_cons_self
          intro hmem
          rcases List.mem_cons.mp hmem with rfl | hmem
          · exact hc rfl
          · exact hq hmem
        · exact ih (List.mem_cons_of_mem _ h)

/-- The texts one after another. -/
def concat (ts : List Text) : Text := ts.flatten

/-- The texts one after another with a separator between two neighbours. -/
def join (sep : Text) (ts : List Text) : Text := sep.intercalate ts

@[simp] theorem join_nil (sep : Text) : join sep [] = [] := rfl

@[simp] theorem join_singleton (sep t : Text) : join sep [t] = t := by
  simp [join, List.intercalate]

theorem join_cons {sep t : Text} {ts : List Text} (h : ts ≠ []) :
    join sep (t :: ts) = t ++ sep ++ join sep ts := by
  cases ts with
  | nil => exact absurd rfl h
  | cons u us => simp [join, List.intercalate, List.append_assoc]

/-- Joining the pieces restores the text. -/
theorem join_pieces (sep : Char) (t : Text) : join [sep] (pieces sep t) = t := by
  induction t with
  | nil => simp
  | cons c t ih =>
    rw [pieces_cons]
    split
    · rename_i hc
      rw [join_cons (pieces_ne_nil sep t), ih, hc]
      rfl
    · cases hps : pieces sep t with
      | nil => exact absurd hps (pieces_ne_nil sep t)
      | cons q qs =>
        rw [hps] at ih
        show join [sep] ((c :: q) :: qs) = c :: t
        rw [← ih]
        cases qs with
        | nil => simp
        | cons r rs => simp [join_cons]

/-- A text without the separator is its only piece. -/
theorem pieces_of_not_mem {sep : Char} {t : Text} (h : sep ∉ t) : pieces sep t = [t] := by
  induction t with
  | nil => rfl
  | cons c t ih =>
    have hc : c ≠ sep := fun e => h (by simp [e])
    have ht : sep ∉ t := fun e => h (List.mem_cons_of_mem _ e)
    rw [pieces_cons, if_neg hc, ih ht]
    rfl

/-- A separator divides the pieces of what stands before it from the pieces of
what stands behind it. -/
theorem pieces_append (sep : Char) (t u : Text) :
    pieces sep (t ++ sep :: u) = pieces sep t ++ pieces sep u := by
  induction t with
  | nil => simp [pieces_cons]
  | cons c t ih =>
    rw [List.cons_append, pieces_cons, pieces_cons, ih]
    split
    · rfl
    · -- The character goes in front of the first piece, and there is one.
      cases hps : pieces sep t with
      | nil => exact absurd hps (pieces_ne_nil sep t)
      | cons p ps => rfl

theorem pieces_append_cons {sep : Char} {t : Text} (h : sep ∉ t) (u : Text) :
    pieces sep (t ++ sep :: u) = t :: pieces sep u := by
  rw [pieces_append, pieces_of_not_mem h, List.singleton_append]

/-- Splitting at the separator undoes the joining of texts without it. -/
theorem pieces_join {sep : Char} {ts : List Text} (hne : ts ≠ []) (h : ∀ t ∈ ts, sep ∉ t) :
    pieces sep (join [sep] ts) = ts := by
  induction ts with
  | nil => exact absurd rfl hne
  | cons t ts ih =>
    have ht : sep ∉ t := h t List.mem_cons_self
    cases ts with
    | nil => simpa using pieces_of_not_mem ht
    | cons u us =>
      have hrest := ih (by simp) fun v hv => h v (List.mem_cons_of_mem _ hv)
      rw [join_cons (by simp), List.append_assoc, List.singleton_append,
        pieces_append_cons ht, hrest]

/-- The lines of a text. Only a line feed ends a line; a carriage return in
front of it stays with the line. -/
def lines (t : Text) : List Text := pieces '\n' t

/-- The text with the given lines. -/
def unlines (ts : List Text) : Text := join ['\n'] ts

@[simp] theorem unlines_lines (t : Text) : unlines t.lines = t := join_pieces '\n' t

/-! ## Searching -/

/-- Whether a word occurs somewhere in a text. -/
def mentions (word : Text) : Text → Bool
  | [] => word.isEmpty
  | c :: t => word.isPrefixOf (c :: t) || mentions word t

/-- The text after a word that it starts with. -/
def after? (word t : Text) : Option Text :=
  if word.isPrefixOf t then some (t.drop word.length) else none

/-- Search for a mark from some point on; `before` is what was passed, last
character first. -/
def cutFrom (mark before : Text) : Text → Option (Text × Text)
  | [] => if mark.isEmpty then some (before.reverse, []) else none
  | c :: t =>
    if mark.isPrefixOf (c :: t) then some (before.reverse, (c :: t).drop mark.length)
    else cutFrom mark (c :: before) t

/-- The text before and the text after the first occurrence of a mark. -/
def cut? (mark t : Text) : Option (Text × Text) := cutFrom mark [] t

/-- The text before and the text after the last occurrence of a character. -/
def cutLast? (sep : Char) (t : Text) : Option (Text × Text) :=
  match t.reverse.dropWhile (· != sep) with
  | [] => none
  | _ :: before => some (before.reverse, (t.reverse.takeWhile (· != sep)).reverse)

/-- The mark and everything around it fit into the text. -/
theorem cutFrom_length {mark before t l r : Text} (h : cutFrom mark before t = some (l, r)) :
    mark.length + r.length ≤ t.length := by
  induction t generalizing before with
  | nil =>
    simp only [cutFrom] at h
    split at h <;> simp_all
  | cons c t ih =>
    simp only [cutFrom] at h
    split at h
    · rename_i hp
      have hlen := (List.isPrefixOf_iff_prefix.mp hp).length_le
      simp only [Option.some.injEq, Prod.mk.injEq] at h
      rw [← h.2, List.length_drop]
      omega
    · have := ih h
      simp only [List.length_cons]
      omega

theorem cut?_length {mark t l r : Text} (h : cut? mark t = some (l, r)) :
    mark.length + r.length ≤ t.length :=
  cutFrom_length h

/-- Every occurrence of `old`, read from the left without overlap, becomes
`new`. The empty text is no occurrence. -/
def replaceAll (old new : Text) : Text → Text
  | [] => []
  | c :: t =>
    if !old.isEmpty && old.isPrefixOf (c :: t) then
      new ++ replaceAll old new (t.drop (old.length - 1))
    else c :: replaceAll old new t
termination_by t => t.length
decreasing_by
  all_goals simp only [List.length_drop, List.length_cons]; omega

/-! ## Numbers -/

/-- The decimal digits of a number. -/
def ofNat (n : Nat) : Text := Nat.toDigits 10 n

end Text
end MemberOrder
