/-
**Plain data.**

Configurations and reports are written down as data: nothing, truth values, numbers, texts, lists
and records.  The two formats in use differ in how they are spelled and in a few conventions; what
a piece of data means is decided here for both.

Main definitions:

* `Testbench.Data` — the data;
* `Testbench.Data.Convention` — where the formats differ;
* `Testbench.Data.text?`, `Testbench.Data.bool?`, `Testbench.Data.natural?`,
  `Testbench.Data.integer?`, `Testbench.Data.texts?` — simple values;
* `Testbench.Data.fields?` — the fields of a record, which may be written as a list;
* `Testbench.Data.field`, `Testbench.Data.optional`, `Testbench.Data.defaulted` — one field.
-/

set_option relaxedAutoImplicit false
set_option autoImplicit false

namespace Testbench

/-- A piece of data. -/
inductive Data
  | null
  | bool (b : Bool)
  | int (n : Int)
  /-- A number written with a point or an exponent; only its numeral is known. -/
  | real (numeral : String)
  | text (s : String)
  | list (items : List Data)
  | record (fields : List (String × Data))
deriving Repr, Inhabited

namespace Data

/-- The fields of a record by name. -/
abbrev Fields := List (String × Data)

/-- Where the formats differ in what they accept. -/
structure Convention where
  /-- A record written as a list may have no items beyond its fields. -/
  refusesExtraItems : Bool
  /-- What stands behind the name of a choice that has no content. -/
  isNoContent : Data → Bool

/-! ### Simple values -/

/-- A truth value. -/
def bool? : Data → Option Bool
  | bool b => some b
  | _ => none

/-- A text. -/
def text? : Data → Option String
  | text s => some s
  | _ => none

/-- A whole number from 0 on that fits in 64 bits. -/
def natural? : Data → Option Nat
  | int n => if 0 ≤ n ∧ n ≤ 18446744073709551615 then some n.toNat else none
  | _ => none

/-- A whole number that fits in 32 bits with a sign. -/
def integer? : Data → Option Int
  | int n => if -2147483648 ≤ n ∧ n ≤ 2147483647 then some n else none
  | _ => none

/-- A list of values of one kind. -/
def list? {α : Type} (item? : Data → Option α) : Data → Option (List α)
  | list items => items.mapM item?
  | _ => none

/-- A list of texts. -/
def texts? : Data → Option (List String) := list? text?

/-- A value that may be nothing. -/
def nullable? {α : Type} (value? : Data → Option α) : Data → Option (Option α)
  | null => some none
  | d => (value? d).map some

/-- The name of a choice without content: the name itself, or a record of nothing else. -/
def choice? (c : Convention) : Data → Option String
  | text s => some s
  | record [(name, content)] => if c.isNoContent content then some name else none
  | _ => none

/-! ### Records -/

/-- The value of a field; of two fields with one name the later counts. -/
def get? (fields : Fields) (name : String) : Option Data :=
  fields.foldl (fun found (n, d) => if n = name then some d else found) none

/-- The fields of a record.  A list stands for a record with its fields in order, of which the
first `required` must be there. -/
def fields? (c : Convention) (names : List String) (required : Nat) : Data → Option Fields
  | record fields => some fields
  | list items =>
      if items.length < required then none
      else if c.refusesExtraItems && names.length < items.length then none
      else some (names.zip items)
  | _ => none

/-- The fields of a record that has to be written as one. -/
def record? : Data → Option Fields
  | record fields => some fields
  | _ => none

/-- A field that must be there. -/
def field {α : Type} (fields : Fields) (name : String) (value? : Data → Option α) : Option α :=
  (get? fields name).bind value?

/-- A field that may be absent or nothing. -/
def optional {α : Type} (fields : Fields) (name : String) (value? : Data → Option α) :
    Option (Option α) :=
  match get? fields name with
  | none => some none
  | some d => nullable? value? d

/-- A field with a value of its own when it is absent. -/
def defaulted {α : Type} (fields : Fields) (name : String) (value? : Data → Option α)
    (default : α) : Option α :=
  match get? fields name with
  | none => some default
  | some d => value? d

/-! ### Writing -/

/-- A list of texts as data. -/
def ofTexts (items : List String) : Data := list (items.map text)

/-- A value that may be missing as data. -/
def ofOption {α : Type} (write : α → Data) : Option α → Data
  | none => null
  | some a => write a

/-- A number as data. -/
def ofNat (n : Nat) : Data := int n

/-- A field that is left out when it has no value. -/
def fieldIfAny {α : Type} (name : String) (write : α → Data) : Option α → Fields
  | none => []
  | some a => [(name, write a)]

end Data

end Testbench
