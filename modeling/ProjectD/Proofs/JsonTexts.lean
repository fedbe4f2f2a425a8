import ProjectD.Proofs.NumberTexts

/-! # JSON written and read

A value that is written in either layout is read back as itself, if its numbers have a JSON form and
it nests no deeper than the reader goes (`Readable`). The text of a value says itself where it ends,
numbers apart, so `value?_text` is about a value with some other text behind it.

Arrays and objects are written and read in the same way. `elements?` and `elementsText` are what
they share, and `elements?_text` is proved once for both.
-/

set_option autoImplicit false

namespace ProjectD.Json

/-! ## Blanks -/

theorem skipBlanks_append {blanks rest : List Char} (hblanks : ∀ c ∈ blanks, isBlank c)
    (hrest : rest.head?.any isBlank = false) : skipBlanks (blanks ++ rest) = rest :=
  dropWhile_append_stop hblanks hrest

theorem skipBlanks_of_head {rest : List Char} (hrest : rest.head?.any isBlank = false) :
    skipBlanks rest = rest :=
  skipBlanks_append (List.forall_mem_nil _) hrest

theorem isBlank_lineBreak (layout : Layout) (depth : Nat) :
    ∀ c ∈ layout.lineBreak depth, isBlank c := by
  intro c h
  cases layout with
  | compact => cases h
  | indented =>
    rcases List.mem_cons.mp h with rfl | h
    · rfl
    · rw [List.eq_of_mem_replicate h]
      rfl

theorem isBlank_closing (layout : Layout) (depth : Nat) (isEmpty : Bool) :
    ∀ c ∈ layout.closing depth isEmpty, isBlank c := by
  cases isEmpty with
  | true => exact List.forall_mem_nil _
  | false => exact isBlank_lineBreak layout depth

theorem isNumberChar_of_isBlank {c : Char} (h : isBlank c) : isNumberChar c = false := by
  simp only [isBlank, Bool.or_eq_true, decide_eq_true_eq] at h
  rcases h with ((rfl | rfl) | rfl) | rfl <;> rfl

theorem numberEnds_blanks {blanks rest : List Char} (hblanks : ∀ c ∈ blanks, isBlank c)
    (hrest : NumberEnds rest) : NumberEnds (blanks ++ rest) := by
  cases blanks with
  | nil => exact hrest
  | cons c cs => exact .cons (isNumberChar_of_isBlank (hblanks c (List.mem_cons_self ..))) _

/-! ## Strings -/

theorem unicodeEscape?_control {n : Nat} (h : n < 32) (rest : List Char) :
    unicodeEscape? ('0' :: '0' :: hexDigit (n / 16) :: hexDigit (n % 16) :: rest) =
      some (Char.ofNat n, rest) := by
  have hhigh := Radix.hexValue?_digitChar (d := n / 16) (by omega)
  have hlow := Radix.hexValue?_digitChar (d := n % 16) (by omega)
  have hzero : Radix.hexValue? '0' = some 0 := rfl
  have hvalue : Radix.hex? 4 ('0' :: '0' :: hexDigit (n / 16) :: hexDigit (n % 16) :: rest) =
      some (n, rest) := by
    have hdigits : n / 16 < 16 ∧ n % 16 < 16 := by omega
    have hplaces : 16 * (n / 16) + n % 16 = n := Nat.div_add_mod n 16
    simp [Radix.hex?, Radix.isDigitOf, Radix.value, hexDigit, hzero, hhigh, hlow, hdigits, hplaces]
  have hsurrogate : isHighSurrogate n = false ∧ isLowSurrogate n = false := by
    simp only [isHighSurrogate, isLowSurrogate, Bool.and_eq_false_iff, decide_eq_false_iff_not]
    omega
  simp [unicodeEscape?, hvalue, hsurrogate]

theorem stringBody?_char (fuel : Nat) (read : String) (c : Char) (rest : List Char) :
    stringBody? (fuel + 1) read (stringChar c ++ rest) = stringBody? fuel (read.push c) rest := by
  unfold stringChar
  split
  · next h => rw [h]; rfl
  split
  · next h => rw [h]; rfl
  split
  · next h => rw [h]; rfl
  split
  · next h => rw [h]; rfl
  split
  · next h => rw [h]; rfl
  split
  · next h => rw [h]; rfl
  split
  · next h => rw [h]; rfl
  split
  · next h =>
    have hread := unicodeEscape?_control h rest
    rw [Char.ofNat_toNat] at hread
    simp [stringBody?, escape?, hread]
  · next hquote hescape _ _ _ _ _ hcontrol =>
    simp [stringBody?, hquote, hescape, hcontrol]

theorem stringBody?_text {fuel : Nat} {cs : List Char} (read : String) (rest : List Char)
    (h : cs.length < fuel) :
    stringBody? fuel read (cs.flatMap stringChar ++ '"' :: rest) =
      some (read ++ String.ofList cs, rest) := by
  induction cs generalizing fuel read with
  | nil =>
    obtain ⟨fuel, rfl⟩ := Nat.exists_eq_add_of_lt h
    simp [stringBody?]
  | cons c cs ih =>
    obtain ⟨fuel, rfl⟩ : ∃ n, fuel = n + 1 := ⟨fuel - 1, by omega⟩
    rw [List.length_cons] at h
    rw [List.flatMap_cons, List.append_assoc, stringBody?_char, ih _ (by omega)]
    have hjoin : read.push c ++ String.ofList cs = read ++ String.ofList (c :: cs) := by
      apply String.toList_injective
      simp
    rw [hjoin]

theorem stringChar_ne_nil (c : Char) : stringChar c ≠ [] := by
  unfold stringChar
  split_ifs <;> exact List.cons_ne_nil _ _

theorem length_le_flatMap_stringChar (cs : List Char) :
    cs.length ≤ (cs.flatMap stringChar).length := by
  induction cs with
  | nil => exact Nat.le_refl 0
  | cons c cs ih =>
    have hc := List.length_pos_of_ne_nil (stringChar_ne_nil c)
    rw [List.flatMap_cons, List.length_append, List.length_cons]
    omega

theorem string?_text (s : String) (rest : List Char) :
    string? (s.toList.flatMap stringChar ++ '"' :: rest) = some (s, rest) := by
  have hlength := length_le_flatMap_stringChar s.toList
  rw [string?, stringBody?_text "" rest (by rw [List.length_append]; omega)]
  simp

/-! ## Elements between brackets -/

/-- A bracket that closes: it is told from blanks, commas and numbers. -/
structure IsClosing (close : Char) : Prop where
  not_blank : isBlank close = false
  not_number : isNumberChar close = false
  ne_comma : close ≠ ','

theorem isClosing_bracket : IsClosing ']' :=
  ⟨rfl, rfl, by decide⟩

theorem isClosing_brace : IsClosing '\x7d' :=
  ⟨rfl, rfl, by decide⟩

section Elements

variable {α : Type}

/-- The elements of an array or an object after the first one, up to and with the bracket that
closes it. -/
def elements? (close : Char) (element? : List Char → Option (α × List Char)) :
    Nat → List Char → Option (List α × List Char)
  | 0, _ => none
  | fuel + 1, cs =>
    match skipBlanks cs with
    | [] => none
    | c :: cs =>
      if c = close then some ([], cs)
      else if c = ',' then do
        let (element, cs) ← element? (skipBlanks cs)
        let (elements, cs) ← elements? close element? fuel cs
        some (element :: elements, cs)
      else none

/-- All elements of an array or an object, after the bracket that opens it. -/
def bracketed? (close : Char) (element? : List Char → Option (α × List Char)) (cs : List Char) :
    Option (List α × List Char) :=
  if (skipBlanks cs).head? = some close then some ([], (skipBlanks cs).drop 1)
  else do
    let (element, cs) ← element? (skipBlanks cs)
    let (elements, cs) ← elements? close element? (cs.length + 1) cs
    some (element :: elements, cs)

/-- Elements, each after the same blanks and each but the first after a comma. -/
def elementsText (blanks : List Char) (elementText : α → List Char) (first : Bool) :
    List α → List Char
  | [] => []
  | a :: as =>
    (if first then [] else [',']) ++ blanks ++ elementText a ++
      elementsText blanks elementText false as

section Equations

variable {close : Char} {element? : List Char → Option (α × List Char)} {cs : List Char}

theorem elements?_close {rest : List Char} (fuel : Nat) (h : skipBlanks cs = close :: rest) :
    elements? close element? (fuel + 1) cs = some ([], rest) := by
  simp only [elements?, h, if_true]

theorem elements?_comma {rest : List Char} (fuel : Nat) (hclose : IsClosing close)
    (h : skipBlanks cs = ',' :: rest) :
    elements? close element? (fuel + 1) cs = (do
      let (element, cs) ← element? (skipBlanks rest)
      let (elements, cs) ← elements? close element? fuel cs
      some (element :: elements, cs)) := by
  simp only [elements?, h, if_neg hclose.ne_comma.symm, if_true]

theorem elements?_other (fuel : Nat) (hclose : ∀ rest, skipBlanks cs ≠ close :: rest)
    (hcomma : ∀ rest, skipBlanks cs ≠ ',' :: rest) :
    elements? close element? (fuel + 1) cs = none := by
  rw [elements?]
  split
  · rfl
  · next c rest heq =>
    have hc : c ≠ close := fun hc => hclose rest (hc ▸ heq)
    have hc' : c ≠ ',' := fun hc => hcomma rest (hc ▸ heq)
    rw [if_neg hc, if_neg hc']

theorem bracketed?_close {rest : List Char} (h : skipBlanks cs = close :: rest) :
    bracketed? close element? cs = some ([], rest) := by
  simp only [bracketed?, h, List.head?_cons, if_true, List.drop_succ_cons, List.drop_zero]

theorem bracketed?_other (h : ∀ rest, skipBlanks cs ≠ close :: rest) :
    bracketed? close element? cs = (do
      let (element, cs) ← element? (skipBlanks cs)
      let (elements, cs) ← elements? close element? (cs.length + 1) cs
      some (element :: elements, cs)) := by
  have hhead : (skipBlanks cs).head? ≠ some close := by
    intro hhead
    obtain ⟨rest, hrest⟩ := List.head?_eq_some_iff.mp hhead
    exact h rest hrest
  rw [bracketed?, if_neg hhead]

end Equations

end Elements

theorem items?_eq (value? : List Char → Option (Json × List Char)) (fuel : Nat) (cs : List Char) :
    items? value? fuel cs = elements? ']' value? fuel cs := by
  induction fuel generalizing cs with
  | zero => rfl
  | succ fuel ih =>
    rw [items?]
    split
    · next heq => rw [elements?_close fuel heq]
    · next heq => simp only [elements?_comma fuel isClosing_bracket heq, ih]
    · next hclose hcomma => rw [elements?_other fuel hclose hcomma]

theorem members?_eq (value? : List Char → Option (Json × List Char)) (fuel : Nat)
    (cs : List Char) : members? value? fuel cs = elements? '\x7d' (member? value?) fuel cs := by
  induction fuel generalizing cs with
  | zero => rfl
  | succ fuel ih =>
    rw [members?]
    split
    · next heq => rw [elements?_close fuel heq]
    · next heq => simp only [elements?_comma fuel isClosing_brace heq, ih]
    · next hclose hcomma => rw [elements?_other fuel hclose hcomma]

theorem array?_eq (value? : List Char → Option (Json × List Char)) (cs : List Char) :
    array? value? cs = (bracketed? ']' value? cs).map (Prod.map .array id) := by
  rw [array?]
  split
  · next heq => rw [bracketed?_close heq]; rfl
  · next hclose =>
    simp only [bracketed?_other hclose, items?_eq, Option.bind_eq_bind, Option.map_bind,
      Function.comp_def, Option.map_some, Prod.map, id]

theorem object?_eq (value? : List Char → Option (Json × List Char)) (cs : List Char) :
    object? value? cs = (bracketed? '\x7d' (member? value?) cs).map (Prod.map .object id) := by
  rw [object?]
  split
  · next heq => rw [bracketed?_close heq]; rfl
  · next hclose =>
    simp only [bracketed?_other hclose, members?_eq, Option.bind_eq_bind, Option.map_bind,
      Function.comp_def, Option.map_some, Prod.map, id]

theorem itemsText_eq (layout : Layout) (depth : Nat) (first : Bool) (items : List Json) :
    itemsText layout depth first items =
      elementsText (layout.lineBreak depth) (text layout depth) first items := by
  induction items generalizing first with
  | nil => rfl
  | cons item items ih => rw [itemsText, elementsText, ih]

theorem membersText_eq (layout : Layout) (depth : Nat) (first : Bool)
    (members : List (String × Json)) :
    membersText layout depth first members =
      elementsText (layout.lineBreak depth) (memberText layout depth) first members := by
  induction members generalizing first with
  | nil => rfl
  | cons member members ih => rw [membersText, elementsText, ih]

/-- An element whose text is read back, wherever numbers can end. -/
def ReadsBack {α : Type} (element? : List Char → Option (α × List Char))
    (elementText : α → List Char) (a : α) : Prop :=
  ∀ rest, NumberEnds rest → element? (elementText a ++ rest) = some (a, rest)

section Elements

variable {α : Type} {close : Char} {element? : List Char → Option (α × List Char)}
  {elementText : α → List Char} {blanks closing : List Char}

theorem numberEnds_elements (hclose : IsClosing close) (hclosing : ∀ c ∈ closing, isBlank c)
    (as : List α) (rest : List Char) :
    NumberEnds (elementsText blanks elementText false as ++ (closing ++ close :: rest)) := by
  cases as with
  | nil =>
    rw [elementsText, List.nil_append]
    exact numberEnds_blanks hclosing (.cons hclose.not_number rest)
  | cons a as => exact .cons rfl _

theorem skipBlanks_element {a : α} {tail : List Char} (hblanks : ∀ c ∈ blanks, isBlank c)
    (hstart : ∀ cs r, element? cs = some r → cs.head?.any isBlank = false)
    (hread : ReadsBack element? elementText a) (htail : NumberEnds tail) :
    skipBlanks (blanks ++ (elementText a ++ tail)) = elementText a ++ tail :=
  skipBlanks_append hblanks (hstart _ _ (hread tail htail))

theorem length_le_elementsText (as : List α) :
    as.length ≤ (elementsText blanks elementText false as).length := by
  induction as with
  | nil => exact Nat.le_refl 0
  | cons a as ih =>
    simp only [elementsText, Bool.false_eq_true, if_false, List.length_append, List.length_cons]
    omega

/-- Induction on the elements; each round of the reader takes the comma, the blanks and one of
them. -/
theorem elements?_text {fuel : Nat} {as : List α} (hclose : IsClosing close)
    (hblanks : ∀ c ∈ blanks, isBlank c) (hclosing : ∀ c ∈ closing, isBlank c)
    (hstart : ∀ cs r, element? cs = some r → cs.head?.any isBlank = false)
    (hread : ∀ a ∈ as, ReadsBack element? elementText a) (rest : List Char)
    (hfuel : as.length < fuel) :
    elements? close element? fuel
      (elementsText blanks elementText false as ++ (closing ++ close :: rest)) =
        some (as, rest) := by
  induction as generalizing fuel with
  | nil =>
    obtain ⟨fuel, rfl⟩ : ∃ n, fuel = n + 1 := ⟨fuel - 1, by omega⟩
    have hskip : skipBlanks (closing ++ close :: rest) = close :: rest :=
      skipBlanks_append hclosing hclose.not_blank
    rw [elementsText, List.nil_append, elements?_close fuel hskip]
  | cons a as ih =>
    obtain ⟨fuel, rfl⟩ : ∃ n, fuel = n + 1 := ⟨fuel - 1, by omega⟩
    rw [List.length_cons] at hfuel
    rw [List.forall_mem_cons] at hread
    have hends : NumberEnds (elementsText blanks elementText false as ++
        (closing ++ close :: rest)) := numberEnds_elements hclose hclosing as rest
    have hrest := ih hread.2 (Nat.lt_of_succ_lt_succ hfuel)
    have hskip := skipBlanks_element hblanks hstart hread.1 hends
    have hcomma (cs : List Char) : skipBlanks (',' :: cs) = ',' :: cs := skipBlanks_of_head rfl
    simp only [elementsText, Bool.false_eq_true, if_false, List.append_assoc, List.cons_append,
      List.nil_append]
    rw [elements?_comma fuel hclose (hcomma _)]
    simp only [hskip, hread.1 _ hends, hrest, Option.bind_eq_bind, Option.bind_some]

theorem bracketed?_text {as : List α} (hclose : IsClosing close)
    (hblanks : ∀ c ∈ blanks, isBlank c) (hclosing : ∀ c ∈ closing, isBlank c)
    (hstart : ∀ cs r, element? cs = some r →
      cs.head?.any isBlank = false ∧ cs.head? ≠ some close)
    (hread : ∀ a ∈ as, ReadsBack element? elementText a) (rest : List Char) :
    bracketed? close element?
      (elementsText blanks elementText true as ++ (closing ++ close :: rest)) =
        some (as, rest) := by
  cases as with
  | nil =>
    have hskip : skipBlanks (closing ++ close :: rest) = close :: rest :=
      skipBlanks_append hclosing hclose.not_blank
    rw [elementsText, List.nil_append, bracketed?_close hskip]
  | cons a as =>
    rw [List.forall_mem_cons] at hread
    have hends : NumberEnds (elementsText blanks elementText false as ++
        (closing ++ close :: rest)) := numberEnds_elements hclose hclosing as rest
    have hfirst := hread.1 _ hends
    have hblank (cs : List Char) (r : α × List Char) (h : element? cs = some r) :=
      (hstart cs r h).1
    have hskip := skipBlanks_element hblanks hblank hread.1 hends
    have hfuel : as.length < (elementsText blanks elementText false as ++
        (closing ++ close :: rest)).length + 1 := by
      have hlength : as.length ≤ (elementsText blanks elementText false as).length :=
        length_le_elementsText as
      rw [List.length_append]
      omega
    have hrest := elements?_text hclose hblanks hclosing hblank hread.2 rest hfuel
    have hopen (cs : List Char) : skipBlanks (blanks ++ (elementText a ++
        (elementsText blanks elementText false as ++ (closing ++ close :: rest)))) ≠
        close :: cs := by
      rw [hskip]
      exact fun heq => (hstart _ _ hfirst).2 (congrArg List.head? heq)
    simp only [elementsText, if_true, List.append_assoc, List.nil_append]
    rw [bracketed?_other hopen]
    simp only [hskip, hfirst, hrest, Option.bind_eq_bind, Option.bind_some]

end Elements

/-! ## Values -/

theorem value?_null (rule : RealRule) (d : Nat) (rest : List Char) :
    value? rule d ('n' :: 'u' :: 'l' :: 'l' :: rest) = some (.null, rest) := by
  unfold value?
  rfl

theorem value?_true (rule : RealRule) (d : Nat) (rest : List Char) :
    value? rule d ('t' :: 'r' :: 'u' :: 'e' :: rest) = some (.bool true, rest) := by
  unfold value?
  rfl

theorem value?_false (rule : RealRule) (d : Nat) (rest : List Char) :
    value? rule d ('f' :: 'a' :: 'l' :: 's' :: 'e' :: rest) = some (.bool false, rest) := by
  unfold value?
  rfl

theorem value?_string (rule : RealRule) (d : Nat) (s : String) (rest : List Char) :
    value? rule d (stringText s ++ rest) = some (.string s, rest) := by
  rw [stringText, List.cons_append, List.append_assoc, List.singleton_append]
  unfold value?
  simp only [string?_text, Option.bind_eq_bind, Option.bind_some]

theorem isDigit_of_unsignedNumber? {rule : RealRule} {negative : Bool} {c : Char} {cs : List Char}
    {r : Json × List Char} (h : unsignedNumber? rule negative (c :: cs) = some r) :
    Decimal.isDigit c := by
  by_contra hc
  simp [unsignedNumber?, wholePart?, hc] at h

/-- A value starts neither with a blank nor with a bracket that closes an array. -/
theorem head_of_value? {rule : RealRule} {d : Nat} {cs : List Char} {r : Json × List Char}
    (h : value? rule d cs = some r) : cs.head?.any isBlank = false ∧ cs.head? ≠ some ']' := by
  unfold value? at h
  split at h
  case h_8 =>
    cases cs with
    | nil => cases h
    | cons c cs =>
      have hc := isDigit_of_unsignedNumber? h
      constructor
      · rw [List.head?_cons, Option.any_some, Bool.eq_false_iff]
        intro hblank
        have hnumber := isNumberChar_of_isBlank hblank
        rw [isNumberChar, hc] at hnumber
        cases hnumber
      · rintro ⟨⟩
        cases hc
  all_goals exact ⟨rfl, by simp⟩

theorem head_of_member? {value? : List Char → Option (Json × List Char)} {cs : List Char}
    {r : (String × Json) × List Char} (h : member? value? cs = some r) :
    cs.head?.any isBlank = false ∧ cs.head? ≠ some '\x7d' := by
  unfold member? at h
  split at h
  · exact ⟨rfl, by simp⟩
  · cases h

/-- Values that are read back: their numbers have a JSON form, and at most `d` levels of arrays and
objects stand in each other. -/
inductive Readable : Nat → Json → Prop where
  | null {d : Nat} : Readable d .null
  | bool {d : Nat} (b : Bool) : Readable d (.bool b)
  | integer {d : Nat} {n : Int} (h : FitsWord n) : Readable d (.integer n)
  | real {d : Nat} {x : Binary64} (h : x.isFinite) : Readable d (.real x)
  | string {d : Nat} (s : String) : Readable d (.string s)
  | array {d : Nat} {items : List Json} (h : ∀ item ∈ items, Readable d item) :
    Readable (d + 1) (.array items)
  | object {d : Nat} {members : List (String × Json)}
    (h : ∀ member ∈ members, Readable d member.2) : Readable (d + 1) (.object members)

theorem readsBack_member {layout : Layout} {depth d : Nat} {member : String × Json}
    (h : ReadsBack (value? .nearest d) (text layout depth) member.2) :
    ReadsBack (member? (value? .nearest d)) (memberText layout depth) member := by
  intro rest hrest
  have hvalue := h rest hrest
  have hskip : skipBlanks (layout.colon.drop 1 ++ (text layout depth member.2 ++ rest)) =
      text layout depth member.2 ++ rest := by
    refine skipBlanks_append ?_ (head_of_value? hvalue).1
    cases layout with
    | compact => exact List.forall_mem_nil _
    | indented => exact List.forall_mem_singleton.mpr rfl
  have hcolon : skipBlanks (layout.colon ++ (text layout depth member.2 ++ rest)) =
      ':' :: (layout.colon.drop 1 ++ (text layout depth member.2 ++ rest)) := by
    cases layout <;> exact skipBlanks_of_head rfl
  obtain ⟨name, value⟩ := member
  simp only [memberText, stringText, List.cons_append, List.append_assoc, List.nil_append, member?,
    string?_text, hcolon, hskip, hvalue, Option.bind_eq_bind, Option.bind_some]

theorem value?_text {d : Nat} {j : Json} (h : Readable d j) (layout : Layout) (depth : Nat) :
    ReadsBack (value? .nearest d) (text layout depth) j := by
  induction h generalizing depth with
  | null => exact fun rest _ => value?_null _ _ rest
  | bool b =>
    cases b with
    | true => exact fun rest _ => value?_true _ _ rest
    | false => exact fun rest _ => value?_false _ _ rest
  | integer h => exact fun rest => value?_integer h
  | real h =>
    intro rest hrest
    rw [text, if_pos h]
    exact value?_real h hrest
  | string s => exact fun rest _ => value?_string _ _ s rest
  | @array d items h ih =>
    intro rest _
    have hread := bracketed?_text isClosing_bracket (isBlank_lineBreak layout (depth + 1))
      (isBlank_closing layout depth items.isEmpty) (fun _ _ => head_of_value?)
      (fun item hitem => ih item hitem (depth + 1)) rest
    rw [text, itemsText_eq, List.cons_append, List.append_assoc, List.append_assoc,
      List.singleton_append, value?, array?_eq, hread]
    rfl
  | @object d members h ih =>
    intro rest _
    have hread := bracketed?_text isClosing_brace (isBlank_lineBreak layout (depth + 1))
      (isBlank_closing layout depth members.isEmpty) (fun _ _ => head_of_member?)
      (fun member hmember => readsBack_member (ih member hmember (depth + 1))) rest
    rw [text, membersText_eq, List.cons_append, List.append_assoc, List.append_assoc,
      List.singleton_append, value?, object?_eq, hread]
    rfl

/-- The text of a readable value, in either layout, gives the value. -/
theorem read?_render {j : Json} (h : Readable maxDepth j) (layout : Layout) :
    read? .nearest (j.render layout) = some j := by
  have hvalue := value?_text h layout 0 [] .nil
  rw [List.append_nil] at hvalue
  rw [read?, render, String.toList_ofList, skipBlanks_of_head (head_of_value? hvalue).1, hvalue]
  rfl

/-! ## One line -/

/-- Whether a character is not one of the controls before the blank. -/
def isPlain (c : Char) : Bool :=
  32 ≤ c.toNat

/-- A text without controls, so without line breaks. -/
def Plain (cs : List Char) : Prop :=
  ∀ c ∈ cs, isPlain c

theorem Plain.of_all {cs : List Char} (h : cs.all isPlain) : Plain cs :=
  List.all_eq_true.mp h

theorem Plain.nil : Plain [] :=
  List.forall_mem_nil _

theorem Plain.cons {c : Char} {cs : List Char} (hc : isPlain c) (hcs : Plain cs) :
    Plain (c :: cs) :=
  List.forall_mem_cons.mpr ⟨hc, hcs⟩

theorem Plain.append {x y : List Char} (hx : Plain x) (hy : Plain y) : Plain (x ++ y) :=
  List.forall_mem_append.mpr ⟨hx, hy⟩

theorem plain_of_isDigit {ds : List Char} (h : ∀ c ∈ ds, Decimal.isDigit c) : Plain ds := by
  intro c hc
  have hdigit := h c hc
  rw [Decimal.isDigit, Bool.and_eq_true, decide_eq_true_eq] at hdigit
  have hzero : 48 ≤ c.toNat := hdigit.1
  exact decide_eq_true (by omega)

theorem plain_digits (n : Nat) : Plain (Decimal.digits n) :=
  plain_of_isDigit fun _ => Decimal.isDigit_of_mem_digits

theorem plain_ofInt (n : Int) : Plain (Decimal.ofInt n) := by
  rw [Decimal.ofInt]
  split
  · exact .cons rfl (plain_digits _)
  · exact plain_digits _

theorem plain_positional (d : Scientific) : Plain d.positional := by
  have hdigits := plain_digits d.digits
  have hzeros (n : Nat) : Plain (List.replicate n '0') :=
    plain_of_isDigit fun _ => isDigit_of_mem_zeros
  rw [Scientific.positional]
  split
  · exact .cons rfl (.cons rfl ((hzeros _).append hdigits))
  · refine .append (.append (fun c hc => hdigits c (List.mem_of_mem_take hc)) (hzeros _)) ?_
    refine .cons rfl ?_
    split
    · exact hzeros 1
    · exact fun c hc => hdigits c (List.mem_of_mem_drop hc)

theorem plain_exponential (d : Scientific) : Plain d.exponential := by
  have hdigits := plain_digits d.digits
  have hfraction : Plain ((Decimal.digits d.digits).drop 1) :=
    fun c hc => hdigits c (List.mem_of_mem_drop hc)
  rw [Scientific.exponential]
  refine .append (.append (fun c hc => hdigits c (List.mem_of_mem_take hc)) ?_) ?_
  · split
    · exact .nil
    · exact .cons rfl hfraction
  · refine .cons rfl (.cons ?_ (plain_digits _))
    split <;> rfl

theorem plain_real (x : Binary64) : Plain x.text := by
  have hbody : Plain (if Positional.standard.least ≤ x.shortest.leading ∧
      x.shortest.leading ≤ Positional.standard.greatest then x.shortest.positional
      else x.shortest.exponential) := by
    split
    · exact plain_positional _
    · exact plain_exponential _
  rw [Binary64.text]
  cases x.isNegative with
  | true => exact .cons rfl hbody
  | false => exact hbody

theorem plain_stringChar (c : Char) : Plain (stringChar c) := by
  have hhex (d : Nat) (hd : d < 16) : Plain [hexDigit d] := by
    apply Plain.of_all
    interval_cases d <;> rfl
  unfold stringChar
  split
  · exact .of_all rfl
  split
  · exact .of_all rfl
  split
  · exact .of_all rfl
  split
  · exact .of_all rfl
  split
  · exact .of_all rfl
  split
  · exact .of_all rfl
  split
  · exact .of_all rfl
  split
  · next h =>
    have hmark : Plain ['\\', 'u', '0', '0'] := .of_all rfl
    exact hmark.append ((hhex (c.toNat / 16) (by omega)).append (hhex _ (Nat.mod_lt _ (by decide))))
  · next h => exact .cons (decide_eq_true (Nat.not_lt.mp h)) .nil

theorem plain_stringText (s : String) : Plain (stringText s) := by
  refine .cons rfl (.append (fun c hc => ?_) (.cons rfl .nil))
  obtain ⟨d, -, hd⟩ := List.mem_flatMap.mp hc
  exact plain_stringChar d c hd

mutual

theorem plain_text (depth : Nat) : (j : Json) → Plain (j.text .compact depth)
  | .null => by
    rw [text]
    exact .of_all rfl
  | .bool b => by
    rw [text]
    split <;> exact .of_all rfl
  | .integer n => plain_ofInt n
  | .real x => by
    rw [text]
    split
    · exact plain_real x
    · exact .of_all rfl
  | .string s => plain_stringText s
  | .array items => by
    have hclosing : Plain (Layout.compact.closing depth items.isEmpty) := by
      cases items <;> exact .nil
    rw [text]
    exact .cons rfl
      (((plain_itemsText (depth + 1) true items).append hclosing).append (.cons rfl .nil))
  | .object members => by
    have hclosing : Plain (Layout.compact.closing depth members.isEmpty) := by
      cases members <;> exact .nil
    rw [text]
    exact .cons rfl
      (((plain_membersText (depth + 1) true members).append hclosing).append
        (.cons rfl .nil))
termination_by structural j => j

theorem plain_itemsText (depth : Nat) (first : Bool) :
    (items : List Json) → Plain (itemsText .compact depth first items)
  | [] => .nil
  | item :: items => by
    have hcomma : Plain (if first then [] else [',']) := by
      cases first <;> exact .of_all rfl
    rw [itemsText]
    exact ((hcomma.append .nil).append (plain_text depth item)).append
      (plain_itemsText depth false items)
termination_by structural items => items

theorem plain_membersText (depth : Nat) (first : Bool) :
    (members : List (String × Json)) → Plain (membersText .compact depth first members)
  | [] => .nil
  | member :: members => by
    have hcomma : Plain (if first then [] else [',']) := by
      cases first <;> exact .of_all rfl
    rw [membersText]
    exact ((hcomma.append .nil).append (plain_memberText depth member)).append
      (plain_membersText depth false members)
termination_by structural members => members

theorem plain_memberText (depth : Nat) :
    (member : String × Json) → Plain (memberText .compact depth member)
  | (name, value) =>
    ((plain_stringText name).append (.cons rfl .nil)).append (plain_text depth value)
termination_by structural member => member

end

end ProjectD.Json
