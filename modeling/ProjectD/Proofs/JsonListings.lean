import ProjectD.Listing
import ProjectD.Proofs.JsonTexts
import ProjectD.Proofs.Vocabulary

/-! # JSON listings lose nothing

A reader of JSON listings, `readListing?`, that takes each part of a token from its own member: the
value of a literal is that of the kind, whatever the lexeme is. Token lists of a scan come back
from it in either layout. For this every number of a listing must have a JSON form: the integers of
a scan fit 64 bits, and its reals have one unless they are infinite.
-/

set_option autoImplicit false

namespace ProjectD

/-! ## Tokens from JSON -/

def Separator.ofName? (name : String) : Option Separator :=
  all.find? (·.name = name)

def Operator.ofName? (name : String) : Option Operator :=
  all.find? (·.name = name)

def Keyword.ofName? (name : String) : Option Keyword :=
  all.find? (·.name = name)

def Literal.ofJson? : Json → Option Literal
  | .object [("Integer", .integer n)] => some (.integer n)
  | .object [("Real", .real x)] => some (.real x)
  | .object [("String", .string s)] => some (.string s)
  | .string "Empty" => some .empty
  | _ => none

def Kind.ofJson? : Json → Option Kind
  | .object [("Separator", .string name)] => (Separator.ofName? name).map .separator
  | .object [("Operator", .string name)] => (Operator.ofName? name).map .operator
  | .object [("Keyword", .string name)] => (Keyword.ofName? name).map .keyword
  | .object [("Literal", j)] => (Literal.ofJson? j).map .literal
  | .object [("Identifier", .object [("name", .string name)])] => some (.identifier name)
  | _ => none

/-- A line or a column. -/
def Position.ofJson? : Json → Option UInt32
  | .integer n => if 0 ≤ n ∧ n < UInt32.size then some (UInt32.ofNat n.toNat) else none
  | _ => none

def Token.ofJson? : Json → Option Token
  | .object [("lexeme", .string lexeme), ("line", line), ("column", column), ("kind", kind)] => do
    let line ← Position.ofJson? line
    let column ← Position.ofJson? column
    let kind ← Kind.ofJson? kind
    some ⟨lexeme, ⟨line, column⟩, kind⟩
  | _ => none

/-- The tokens that a JSON text lists. -/
def readListing? (s : String) : Option (List Token) :=
  match Json.read? .nearest s with
  | some (.array items) => items.mapM Token.ofJson?
  | _ => none

theorem Separator.ofName?_name (s : Separator) : ofName? s.name = some s := by
  cases s <;> rfl

theorem Operator.ofName?_name (o : Operator) : ofName? o.name = some o := by
  cases o <;> rfl

theorem Keyword.ofName?_name (k : Keyword) : ofName? k.name = some k := by
  cases k <;> rfl

theorem Literal.ofJson?_toJson (l : Literal) : ofJson? l.toJson = some l := by
  cases l <;> rfl

theorem Kind.ofJson?_toJson (kind : Kind) : ofJson? kind.toJson = some kind := by
  cases kind with
  | separator s => exact congrArg (Option.map _) s.ofName?_name
  | operator o => exact congrArg (Option.map _) o.ofName?_name
  | keyword k => exact congrArg (Option.map _) k.ofName?_name
  | literal l => exact congrArg (Option.map _) l.ofJson?_toJson
  | identifier name => rfl

theorem Position.ofJson?_toNat (n : UInt32) : ofJson? (.integer n.toNat) = some n := by
  have hbound : (n.toNat : Int) < UInt32.size := by exact_mod_cast n.toNat_lt
  rw [ofJson?, if_pos ⟨Int.natCast_nonneg _, hbound⟩, Int.toNat_natCast, UInt32.ofNat_toNat]

theorem Token.ofJson?_toJson (t : Token) : ofJson? t.toJson = some t := by
  simp only [toJson, ofJson?, Position.ofJson?_toNat, Kind.ofJson?_toJson, Option.bind_eq_bind,
    Option.bind_some]

/-! ## Numbers of a listing -/

def Binary64.isInfinite (x : Binary64) : Bool :=
  x.magnitude = infinityMagnitude

/-- A rounded quotient is finite or infinite; there is no third case. -/
theorem Binary64.isFinite_ofRatio {negative : Bool} {num den : Nat}
    (h : (ofRatio negative num den).isInfinite = false) : (ofRatio negative num den).isFinite := by
  have hle : magnitudeOfRatio num den ≤ infinityMagnitude := Nat.min_le_left ..
  have hbound : magnitudeOfRatio num den < signBit := Nat.lt_of_le_of_lt hle (by decide)
  rw [isInfinite, ofRatio, magnitude_ofMagnitude negative hbound, decide_eq_false_iff_not] at h
  rw [isFinite, ofRatio, magnitude_ofMagnitude negative hbound, decide_eq_true_eq]
  exact Nat.lt_of_le_of_ne hle h

theorem fitsWord_integer {x : List Char} (h : (Decimal.value x : Int) ≤ Numeral.greatestInteger) :
    Json.FitsWord (Decimal.value x) := by
  unfold Numeral.greatestInteger at h
  unfold Json.FitsWord
  omega

namespace Json

theorem Readable.member {d : Nat} {j : Json} (h : Readable d j) (name : String) :
    Readable (d + 1) (.object [(name, j)]) :=
  .object (by simpa using h)

end Json

theorem Literal.readable_toJson {l : Literal} {lexeme : String}
    (h : Kind.WrittenAs (.literal l) lexeme) (hfinite : ∀ x, l = .real x → x.isInfinite = false)
    (d : Nat) : Json.Readable (d + 1) l.toJson := by
  cases h with
  | integer _ hmax => exact .member (.integer (fitsWord_integer hmax)) "Integer"
  | real => exact .member (.real (Binary64.isFinite_ofRatio (hfinite _ rfl))) "Real"
  | string => exact .member (.string _) "String"
  | empty => exact .string "Empty"

theorem Kind.readable_toJson {kind : Kind} {lexeme : String} (h : kind.WrittenAs lexeme)
    (hfinite : ∀ x, kind = .literal (.real x) → x.isInfinite = false) (d : Nat) :
    Json.Readable (d + 2) kind.toJson := by
  cases kind with
  | separator s => exact .member (.string _) "Separator"
  | operator o => exact .member (.string _) "Operator"
  | keyword k => exact .member (.string _) "Keyword"
  | literal l =>
    refine .member (Literal.readable_toJson h (fun x hx => hfinite x ?_) d) "Literal"
    rw [hx]
  | identifier name => exact .member (.member (.string name) "name") "Identifier"

theorem Token.readable_toJson {t : Token} (h : t.kind.WrittenAs t.lexeme)
    (hfinite : ∀ x, t.kind = .literal (.real x) → x.isInfinite = false) (d : Nat) :
    Json.Readable (d + 3) t.toJson := by
  have hword (n : UInt32) : Json.FitsWord n.toNat := by
    have hbound := n.toNat_lt
    unfold Json.FitsWord
    omega
  refine .object ?_
  simp only [List.forall_mem_cons]
  exact ⟨.string _, .integer (hword _), .integer (hword _), Kind.readable_toJson h hfinite d,
    List.forall_mem_nil _⟩

/-! ## Listings -/

theorem writtenAs_of_tokenize {source : String} {tabWidth : UInt32} {tokens : List Token}
    (h : tokenize source tabWidth = .ok tokens) : ∀ t ∈ tokens, t.kind.WrittenAs t.lexeme := by
  refine forall_mem_of_tokenize h fun x rest pos token hx hclass => ?_
  rcases hx.settled pos with ⟨kind, hkind, hsettled⟩ | ⟨e, -, hsettled⟩
  · rw [hsettled] at hclass
    obtain rfl := Except.ok.inj hclass
    exact hkind
  · simp [hsettled] at hclass

theorem mapM_ofJson? (tokens : List Token) :
    (tokens.map Token.toJson).mapM Token.ofJson? = some tokens := by
  induction tokens with
  | nil => rfl
  | cons t ts ih => simp [List.mapM_cons, Token.ofJson?_toJson, ih]

theorem readListing?_renderJson {tokens : List Token}
    (h : ∀ t ∈ tokens, Json.Readable (Json.maxDepth - 1) t.toJson) (layout : Json.Layout) :
    readListing? (renderJson layout tokens) = some tokens := by
  have hlist : Json.Readable Json.maxDepth (.array (tokens.map Token.toJson)) :=
    .array (List.forall_mem_map.mpr h)
  rw [readListing?, renderJson, Json.read?_render hlist layout]
  exact mapM_ofJson? tokens

theorem plain_renderJson (tokens : List Token) :
    Json.Plain (renderJson .compact tokens).toList := by
  rw [renderJson, Json.render, String.toList_ofList]
  exact Json.plain_text 0 _

/-- A JSON listing is read back in both layouts, unless it holds an infinite number, and on one line
it has no line break. -/
theorem json_render_lossless {source : String} {tabWidth : UInt32} {tokens : List Token}
    (h : tokenize source tabWidth = .ok tokens) :
    ((∀ t ∈ tokens, ∀ x, t.kind = .literal (.real x) → x.isInfinite = false) →
      ∀ pretty, readListing? (OutputFormat.json.render pretty tokens) = some tokens) ∧
    '\n' ∉ (OutputFormat.json.render false tokens).toList ∧
    '\r' ∉ (OutputFormat.json.render false tokens).toList := by
  refine ⟨fun hfinite pretty => ?_, fun hmem => ?_, fun hmem => ?_⟩
  · refine readListing?_renderJson (fun t ht => ?_) _
    exact Token.readable_toJson (writtenAs_of_tokenize h t ht) (hfinite t ht) 123
  · exact absurd (plain_renderJson tokens _ hmem) (by decide)
  · exact absurd (plain_renderJson tokens _ hmem) (by decide)

/-- A real number, and a string with a carriage return in it. -/
def realAndReturn : List Token :=
  [⟨"2.5", ⟨1, 1⟩, .literal (.real ⟨0x4004000000000000⟩)⟩,
    ⟨"'\r'", ⟨1, 5⟩, .literal (.string "\r")⟩]

theorem json_render_lossless_real :
    tokenize "2.5 '\r'" 4 = .ok realAndReturn ∧
      readListing? (OutputFormat.json.render false realAndReturn) = some realAndReturn ∧
      '\r' ∉ (OutputFormat.json.render false realAndReturn).toList := by
  have hok : tokenize "2.5 '\r'" 4 = .ok realAndReturn := by decide +kernel
  obtain ⟨hread, -, hreturn⟩ := json_render_lossless hok
  refine ⟨hok, hread ?_ false, hreturn⟩
  simp only [realAndReturn, List.forall_mem_cons]
  refine ⟨fun x hx => ?_, fun x hx => ?_, List.forall_mem_nil _⟩
  · obtain rfl := Literal.real.inj (Kind.literal.inj hx)
    decide
  · cases hx

end ProjectD
