import Mathlib.Data.String.Basic
import Mathlib.Data.List.Sort

/-!
# The users collection

The collection `users` of Firestore and the operations of
`API/ConnectionManager.swift` on it.  A query returns its documents in the order
of their document IDs, so the collection is kept in that order.  The auto-IDs of
new documents are taken as given, and nothing below depends on their being
distinct.

`isExistingCode` and `getIdByCode` swallow a failed query: the first then answers
`false`, the second the empty string.  `getIdByCode` reads the first document of
the result without looking whether there is one, and Firestore refuses a document
reference with an empty path; both end the process, and a `Trap` says how.
-/

namespace Pompom

/-- A document of the collection `users`. -/
structure UserDocument where
  documentID : String
  code : String
  partnerCode : String
  deriving DecidableEq, Repr

abbrev Users := List UserDocument

/-- The values of `partner_code` that stand for no partner: `saveCode` stores the
first, `updatePartnerCodeBy` the second. -/
def Blank (partnerCode : String) : Prop :=
  partnerCode = "" ∨ partnerCode = " "

instance (partnerCode : String) : Decidable (Blank partnerCode) :=
  inferInstanceAs (Decidable (_ ∨ _))

namespace Users

def codes (users : Users) : List String := users.map (·.code)

/-- The documents that `whereField("code", isEqualTo: code)` selects. -/
def whereCode (users : Users) (code : String) : List UserDocument :=
  users.filter fun document => document.code = code

def insertDocument (users : Users) (document : UserDocument) : Users :=
  users.orderedInsert (fun first second => first.documentID ≤ second.documentID) document

def setPartnerCode (users : Users) (documentID partnerCode : String) : Users :=
  users.map fun document =>
    if document.documentID = documentID then { document with partnerCode := partnerCode }
    else document

/-- The `partner_code` of the document with the given ID. -/
def partnerCodeOf (users : Users) (documentID : String) : Option String :=
  (users.find? fun document => document.documentID = documentID).map (·.partnerCode)

@[simp] theorem mem_insertDocument {users : Users} {document other : UserDocument} :
    other ∈ users.insertDocument document ↔ other = document ∨ other ∈ users :=
  List.mem_orderedInsert _

theorem mem_whereCode {users : Users} {code : String} {document : UserDocument} :
    document ∈ users.whereCode code ↔ document ∈ users ∧ document.code = code := by
  simp [whereCode]

theorem whereCode_ne_nil {users : Users} {code : String} :
    users.whereCode code ≠ [] ↔ code ∈ users.codes := by
  simp [whereCode, codes]

theorem length_whereCode (users : Users) (code : String) :
    (users.whereCode code).length = users.codes.count code := by
  rw [codes, List.count_eq_countP, List.countP_map, List.countP_eq_length_filter]
  exact congrArg _ (List.filter_congr fun document _ => (beq_eq_decide _ _).symm)

@[simp] theorem codes_setPartnerCode (users : Users) (documentID partnerCode : String) :
    (users.setPartnerCode documentID partnerCode).codes = users.codes := by
  simp only [codes, setPartnerCode, List.map_map]
  refine List.map_congr_left ?_
  intro document _
  simp only [Function.comp_apply]
  split <;> rfl

theorem codes_insertDocument_perm (users : Users) (document : UserDocument) :
    (users.insertDocument document).codes.Perm (document.code :: users.codes) :=
  (List.perm_orderedInsert _ document users).map _

end Users

/-! ## Operations of the connection manager -/

/-- What ends the process: a subscript into an empty query result, a reference to
a user document with an empty ID, a reference to a clothes document with an empty
code. -/
inductive Trap where
  | emptyResult
  | emptyDocumentID
  | emptyClothesCode
  deriving DecidableEq, Repr

namespace ConnectionManager

/-- The answer of `isExistingCode` to the outcome of its query. -/
def isExistingCode (result : Option (List UserDocument)) : Bool :=
  match result with
  | some documents => !documents.isEmpty
  | none => false

/-- The answer of `getIdByCode` to the outcome of its query. -/
def getIdByCode (result : Option (List UserDocument)) : Except Trap String :=
  match result with
  | some (document :: _) => .ok document.documentID
  | some [] => .error .emptyResult
  | none => .ok ""

theorem ne_emptyClothesCode {result : Option (List UserDocument)} {trap : Trap}
    (herror : getIdByCode result = .error trap) : trap ≠ .emptyClothesCode := by
  unfold getIdByCode at herror
  split at herror
  · simp at herror
  · obtain rfl := Except.error.inj herror
    decide
  · simp at herror

/-- The document that `saveCode` adds. -/
def newDocument (documentID code : String) : UserDocument :=
  ⟨documentID, code, ""⟩

end ConnectionManager

namespace CodeManager

/-- The characters that `generateCode` draws from. -/
def elements : List Char := "0123456789ABCDEFGHIJKLMNOPQRSTUVWXYZ".toList

/-- The strings that `generateCode(length: 10)` can return. -/
def Generated (code : String) : Prop :=
  code.toList.length = 10 ∧ ∀ char ∈ code.toList, char ∈ elements

-- By the characters of the code; Batteries has an instance that tries all characters.
instance (code : String) : Decidable (Generated code) :=
  @instDecidableAnd _ _ inferInstance
    (List.decidableBAll (fun char => char ∈ elements) code.toList)

/-- What Swift compares a character as.  These three are canonically equivalent to an
ASCII character, and no others are. -/
def canonical : Char → Char
  | '\u212a' => 'K'
  | '\u037e' => ';'
  | '\u1fef' => '\x60'
  | char => char

/-- Swift's `==` on two strings of which one is ASCII, as an own code is. -/
def SameCode (first second : String) : Prop :=
  first.toList.map canonical = second.toList.map canonical

instance (first second : String) : Decidable (SameCode first second) :=
  inferInstanceAs (Decidable (_ = _))

theorem sameCode_refl (code : String) : SameCode code code := rfl

theorem ne_of_not_sameCode {first second : String} (hdiffers : ¬ SameCode first second) :
    first ≠ second := by
  rintro rfl
  exact hdiffers (sameCode_refl first)

/-- The value `temp` that the listener of `getPartnerCodeFromServer` stores and
passes on. -/
def partnerCodeFromServer (data : String) : String :=
  if data ≠ " " then data else ""

theorem partnerCodeFromServer_eq_empty {data : String} :
    partnerCodeFromServer data = "" ↔ Blank data := by
  unfold partnerCodeFromServer Blank
  split <;> simp_all

end CodeManager

end Pompom
