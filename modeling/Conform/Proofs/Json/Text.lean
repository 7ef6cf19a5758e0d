/-
JSON text is read back. What a text says is a document (`Document`); a document has tokens
(`Document.tokens`), from which the reader restores it (`Document.foldlM_tokens`), and the text of
JSON data spells the tokens of its document (`spells_text`). So that is the document which is read
from the text (`Document.parse?_text`).
-/
import Conform.Proofs.Json.Layout
import Conform.Proofs.Json.Token
import Conform.Proofs.Text.Unambiguous

namespace Conform.Json

/-! ## Documents as tokens -/

namespace Document

mutual

/-- The tokens of a document. -/
def tokens : Document → List Token
  | null => [.null]
  | bool b => [.bool b]
  | numeral n => [.numeral n]
  | string s => [.string s]
  | array items =>
    .openBracket :: ([Token.comma].intercalate (itemTokens items) ++ [.closeBracket])
  | object members =>
    .openBrace :: ([Token.comma].intercalate (memberTokens members) ++ [.closeBrace])

def itemTokens : List Document → List (List Token)
  | [] => []
  | d :: ds => d.tokens :: itemTokens ds

def memberTokens : List (String × Document) → List (List Token)
  | [] => []
  | (k, d) :: ms => (.string k :: .colon :: d.tokens) :: memberTokens ms

end

open Reading

/-- The first item of an array is read like any value, because no value begins with the end of the
array. -/
theorem foldlM_firstItem (frames : List Frame) (d : Document) (ts : List Token) :
    (d.tokens ++ ts).foldlM step? (firstItem frames) =
      (d.tokens ++ ts).foldlM step? (value (.items [] :: frames)) := by
  cases d <;> rfl

mutual

/-- A document is read from its tokens. -/
theorem foldlM_tokens (frames : List Frame) :
    (d : Document) → d.tokens.foldlM step? (value frames) = some (after frames d)
  | null => rfl
  | bool _ => rfl
  | numeral _ => rfl
  | string _ => rfl
  | array [] => rfl
  | array (d :: ds) => by
    have first := foldlM_tokens (.items [] :: frames) d
    have rest := foldlM_items frames [] d ds
    rw [tokens, itemTokens, List.intercalate_cons, List.append_assoc]
    show (d.tokens ++ _).foldlM step? (firstItem frames) = _
    rw [foldlM_firstItem, List.foldlM_append, first]
    exact rest
  | object [] => rfl
  | object ((k, d) :: ms) => by
    have first := foldlM_tokens (.members [] k :: frames) d
    have rest := foldlM_members frames [] k d ms
    rw [tokens, memberTokens, List.intercalate_cons, List.append_assoc]
    show (d.tokens ++ _).foldlM step? (value (.members [] k :: frames)) = _
    rw [List.foldlM_append, first]
    exact rest

/-- Items that follow an item `d` are read up to the end of the array. -/
theorem foldlM_items (frames : List Frame) (done : List Document) (d : Document) :
    (ds : List Document) →
      ((itemTokens ds).flatMap (Token.comma :: ·) ++ [Token.closeBracket]).foldlM step?
        (after (.items done :: frames) d) =
      some (after frames (.array ((d :: done).reverse ++ ds)))
  | [] => by simp [itemTokens, step?]
  | d' :: ds => by
    have next := foldlM_tokens (.items (d :: done) :: frames) d'
    have rest := foldlM_items frames (d :: done) d' ds
    rw [itemTokens, List.flatMap_cons, List.append_assoc]
    show (d'.tokens ++ _).foldlM step? (value (.items (d :: done) :: frames)) = _
    rw [List.foldlM_append, next, Option.bind_eq_bind, Option.bind_some, rest]
    simp

/-- Members that follow a member are read up to the end of the object. -/
theorem foldlM_members (frames : List Frame) (done : List (String × Document)) (k : String)
    (d : Document) : (ms : List (String × Document)) →
      ((memberTokens ms).flatMap (Token.comma :: ·) ++ [Token.closeBrace]).foldlM step?
        (after (.members done k :: frames) d) =
      some (after frames (.object (((k, d) :: done).reverse ++ ms)))
  | [] => by simp [memberTokens, step?]
  | (k', d') :: ms => by
    have next := foldlM_tokens (.members ((k, d) :: done) k' :: frames) d'
    have rest := foldlM_members frames ((k, d) :: done) k' d' ms
    rw [memberTokens, List.flatMap_cons, List.append_assoc]
    show (d'.tokens ++ _).foldlM step? (value (.members ((k, d) :: done) k' :: frames)) = _
    rw [List.foldlM_append, next, Option.bind_eq_bind, Option.bind_some, rest]
    simp

end

/-- A text that has the tokens of a document is read as the document. -/
theorem parse?_of_tokens {text : String} {d : Document}
    (h : tokens? text.toList = some d.tokens) : parse? text = some d := by
  simp [parse?, h, foldlM_tokens, finished?]

end Document

/-! ## Data as documents -/

def floatDocument : Binary64 → Document
  | .nan => .null
  | .infinite _ => .null
  | .finite negative m q h => .numeral (Spelling.ofFinite .json negative m q h).numeral

mutual

/-- The document that the text of JSON data is. -/
def document : Json → Document
  | null => .null
  | bool b => .bool b
  | integer n => .numeral (Spelling.ofInt n).numeral
  | float x => floatDocument x
  | string s => .string s
  | array items => .array (itemDocuments items)
  | object members => .object (memberDocuments members)

def itemDocuments : List Json → List Document
  | [] => []
  | j :: js => j.document :: itemDocuments js

def memberDocuments {b : Option String} : Table.From Json b → List (String × Document)
  | .nil => []
  | .cons k _ j rest => (k, j.document) :: memberDocuments rest

end

theorem spells_float (x : Binary64) : Spells (floatText x).toList (floatDocument x).tokens := by
  cases x with
  | nan => exact spells_null
  | infinite => exact spells_null
  | finite negative m q h =>
    have spelt := spells_numeral (Spelling.ofFinite .json negative m q h)
    rwa [Spelling.text_ofFinite Layout.readable_json] at spelt

theorem endsNumeral_cons {c : Char} (cs : List Char)
    (h : c.isDigit = false ∧ c ≠ '.' ∧ c ≠ 'e' ∧ c ≠ 'E') : EndsNumeral (c :: cs) := by
  rintro d ⟨⟩
  exact h

/-- Further texts with commas in front of them spell what they spell with commas in front. -/
theorem spells_flatMap {texts : List (List Char)} {parts : List (List Token)}
    (h : List.Forall₂ Spells texts parts) :
    Spells (texts.flatMap (',' :: ·)) (parts.flatMap (Token.comma :: ·)) ∧
      EndsNumeral (texts.flatMap (',' :: ·)) := by
  induction h with
  | nil => exact ⟨spells_nil, by simp [EndsNumeral]⟩
  | @cons text part texts parts first rest ih =>
    have comma : Spells (',' :: (text ++ texts.flatMap (',' :: ·)))
        (.comma :: (part ++ parts.flatMap (Token.comma :: ·))) :=
      (first.append ih.1 ih.2).cons rfl rfl
    exact ⟨comma, endsNumeral_cons _ (by decide)⟩

/-- Texts with commas between them, in brackets of either kind. -/
theorem spells_enclosed (first last : Char) {opening closing : Token} {texts : List String}
    {parts : List (List Token)} (hopen : isBlank first = false ∧ punctuation? first = some opening)
    (hclose : isBlank last = false ∧ punctuation? last = some closing)
    (ends : last.isDigit = false ∧ last ≠ '.' ∧ last ≠ 'e' ∧ last ≠ 'E')
    (h : List.Forall₂ (fun text part => Spells text.toList part) texts parts) :
    Spells (first :: ((",".intercalate texts).toList ++ [last]))
      (opening :: ([Token.comma].intercalate parts ++ [closing])) := by
  have inner : Spells (",".intercalate texts).toList ([Token.comma].intercalate parts) := by
    rw [String.toList_intercalate]
    cases h with
    | nil => exact spells_nil
    | cons first rest =>
      obtain ⟨more, ends⟩ := spells_flatMap (List.forall₂_map_left_iff.2 rest)
      rw [List.map_cons, show ",".toList = [','] from rfl, List.intercalate_cons, List.intercalate_cons]
      exact first.append more ends
  exact (inner.append (spells_nil.cons hclose.1 hclose.2) (endsNumeral_cons [] ends)).cons hopen.1
    hopen.2

namespace Document

theorem itemTokens_eq : (ds : List Document) → itemTokens ds = ds.map tokens
  | [] => rfl
  | _ :: ds => congrArg _ (itemTokens_eq ds)

theorem memberTokens_eq :
    (ms : List (String × Document)) →
      memberTokens ms = ms.map fun e => .string e.1 :: .colon :: e.2.tokens
  | [] => rfl
  | _ :: ms => congrArg _ (memberTokens_eq ms)

end Document

theorem spells_arrayText {texts : List String} {ds : List Document}
    (h : List.Forall₂ (fun text part => Spells text.toList part) texts (Document.itemTokens ds)) :
    Spells (arrayText texts).toList (Document.array ds).tokens := by
  have spelt := spells_enclosed '[' ']' ⟨rfl, rfl⟩ ⟨rfl, rfl⟩ (by decide) h
  simpa [arrayText, Document.tokens] using spelt

theorem spells_objectText {texts : List String} {ms : List (String × Document)}
    (h : List.Forall₂ (fun text part => Spells text.toList part) texts (Document.memberTokens ms)) :
    Spells (objectText texts).toList (Document.object ms).tokens := by
  have spelt := spells_enclosed '\x7b' '\x7d' ⟨rfl, rfl⟩ ⟨rfl, rfl⟩ (by decide) h
  simpa [objectText, Document.tokens] using spelt

theorem spells_memberText (k : String) {text : String} {ts : List Token}
    (h : Spells text.toList ts) :
    Spells (memberText k text).toList (.string k :: .colon :: ts) := by
  have value : Spells (':' :: text.toList) (.colon :: ts) := h.cons rfl rfl
  simpa [memberText] using (spells_string k).append value (endsNumeral_cons _ (by decide))

mutual

/-- The text of JSON data spells the tokens of its document. -/
theorem spells_text : (j : Json) → Spells j.text.toList j.document.tokens
  | null => spells_null
  | bool b => spells_bool b
  | integer n => by
    have spelt := spells_numeral (Spelling.ofInt n)
    rwa [Spelling.text_ofInt] at spelt
  | float x => spells_float x
  | string s => spells_string s
  | array items => spells_arrayText (spells_itemTexts items)
  | object members => spells_objectText (spells_memberTexts members)

theorem spells_itemTexts : (js : List Json) →
    List.Forall₂ (fun text part => Spells text.toList part) (itemTexts js)
      (Document.itemTokens (itemDocuments js))
  | [] => .nil
  | j :: js => .cons (spells_text j) (spells_itemTexts js)

theorem spells_memberTexts {b : Option String} : (t : Table.From Json b) →
    List.Forall₂ (fun text part => Spells text.toList part) (memberTexts t)
      (Document.memberTokens (memberDocuments t))
  | .nil => .nil
  | .cons k _ j rest => .cons (spells_memberText k (spells_text j)) (spells_memberTexts rest)

end

/-- A text that spells the tokens of a document is read as the document. -/
theorem Document.parse?_of_spells {text : String} {d : Document}
    (h : Spells text.toList d.tokens) : Document.parse? text = some d := by
  refine parse?_of_tokens ?_
  simpa [tokens?] using h [] (by simp [EndsNumeral])

/-- The document of JSON data is read from its text. -/
theorem Document.parse?_text (j : Json) : Document.parse? j.text = some j.document :=
  Document.parse?_of_spells (spells_text j)

end Conform.Json
