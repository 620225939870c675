/-
**Values that come back from data.**

A value is written as data and read from data.  What has to be known of a writer and a reader is
that the reader gives back what was written, that nothing is written for no value only, and that no
number is written whose numeral alone is known.  With that, lists, optional values and the fields of
a record come back when their parts do, whether a field without a value is written as nothing or
left out.

Main definitions:

* `Testbench.Data.Recovers` — a value comes back from the data it is written as;
* `Testbench.Data.FitsNatural`, `Testbench.Data.FitsInteger` — numbers that are not too large.

Main results:

* `Testbench.Data.get?_append`, `Testbench.Data.get?_fieldIfAny` — the fields of composed records;
* `Testbench.Data.recovers_list` — lists come back in their order;
* `Testbench.Data.bind_field`, `Testbench.Data.bind_defaulted` — fields that are written;
* `Testbench.Data.bind_optional`, `Testbench.Data.bind_leftOut` — and fields that may be missing.
-/

import Testbench.Proofs.JsonText

set_option relaxedAutoImplicit false
set_option autoImplicit false

namespace Testbench.Data

variable {α : Type}

/-! ### The fields of composed records -/

@[simp] theorem get?_nil (name : String) : get? [] name = none := rfl

/-- A field further on hides the ones before it. -/
theorem foldl_get? (fs : Fields) (name : String) (found : Option Data) :
    fs.foldl (fun found (n, d) => if n = name then some d else found) found =
      (get? fs name).or found := by
  induction fs generalizing found with
  | nil => rfl
  | cons f fs ih =>
      rw [get?, List.foldl_cons, List.foldl_cons, ih, ih]
      by_cases hname : f.1 = name
      · simp [hname]
      · simp [hname]

@[simp] theorem get?_cons (n : String) (d : Data) (fs : Fields) (name : String) :
    get? ((n, d) :: fs) name = (get? fs name).or (if n = name then some d else none) :=
  foldl_get? fs name _

@[simp] theorem get?_append (fs gs : Fields) (name : String) :
    get? (fs ++ gs) name = (get? gs name).or (get? fs name) := by
  rw [get?, List.foldl_append]
  exact foldl_get? gs name _

@[simp] theorem get?_fieldIfAny (n : String) (write : α → Data) (o : Option α) (name : String) :
    get? (fieldIfAny n write o) name = if n = name then o.map write else none := by
  cases o with
  | none => simp [fieldIfAny]
  | some a => simp [fieldIfAny]

/-! ### Exactness -/

@[simp] theorem fieldsExact_append (fs gs : Fields) :
    fieldsExact (fs ++ gs) = (fieldsExact fs && fieldsExact gs) := by
  rw [fieldsExact_eq_all, fieldsExact_eq_all, fieldsExact_eq_all, List.all_append]

/-! ### Values that come back -/

/-- The value **comes back** from the data it is written as. -/
structure Recovers (write : α → Data) (read? : Data → Option α) (a : α) : Prop where
  /-- Only a missing value is written as nothing. -/
  present : write a ≠ .null
  exact : (write a).isExact = true
  read : read? (write a) = some a

theorem recovers_text (s : String) : Recovers .text text? s := ⟨nofun, rfl, rfl⟩

theorem recovers_bool (b : Bool) : Recovers .bool bool? b := ⟨nofun, rfl, rfl⟩

/-- The number fits in 64 bits. -/
def FitsNatural (n : Nat) : Prop := n ≤ 18446744073709551615

instance (n : Nat) : Decidable (FitsNatural n) :=
  inferInstanceAs (Decidable (n ≤ 18446744073709551615))

theorem recovers_natural {n : Nat} (h : FitsNatural n) : Recovers ofNat natural? n where
  present := nofun
  exact := rfl
  read := by
    have hrange : (0 : Int) ≤ n ∧ (n : Int) ≤ 18446744073709551615 := by
      unfold FitsNatural at h
      omega
    rw [ofNat, natural?, if_pos hrange, Int.toNat_natCast]

/-- The number fits in 32 bits with a sign. -/
def FitsInteger (n : Int) : Prop := -2147483648 ≤ n ∧ n ≤ 2147483647

instance (n : Int) : Decidable (FitsInteger n) :=
  inferInstanceAs (Decidable (-2147483648 ≤ n ∧ n ≤ 2147483647))

theorem recovers_integer {n : Int} (h : FitsInteger n) : Recovers .int integer? n where
  present := nofun
  exact := rfl
  read := if_pos h

/-- **A list comes back in its order** when its items do. -/
theorem recovers_list {write : α → Data} {read? : Data → Option α} {as : List α}
    (h : ∀ a ∈ as, Recovers write read? a) :
    Recovers (fun as => .list (as.map write)) (list? read?) as where
  present := nofun
  exact := by
    have hall : ∀ d ∈ as.map write, d.isExact = true := by
      intro d hd
      obtain ⟨a, ha, rfl⟩ := List.mem_map.1 hd
      exact (h a ha).exact
    exact (itemsExact_eq_all _).trans (List.all_eq_true.2 hall)
  read := by
    show (as.map write).mapM read? = some as
    induction as with
    | nil => rfl
    | cons a as ih =>
        have hhead := (h a List.mem_cons_self).read
        have htail := ih fun b hb => h b (List.mem_cons_of_mem a hb)
        rw [List.map_cons, List.mapM_cons, hhead, htail]
        rfl

theorem recovers_texts (ss : List String) : Recovers ofTexts texts? ss :=
  recovers_list fun s _ => recovers_text s

/-! ### Fields -/

section Fields

variable {β : Type} {fields : Fields} {name : String} {write : α → Data} {read? : Data → Option α}

/-- A field that is always written, and what is read after it. -/
theorem bind_field {a : α} {k : α → Option β} {b : β} (h : Recovers write read? a)
    (hget : get? fields name = some (write a)) (hk : k a = some b) :
    (field fields name read?).bind k = some b := by
  rw [field, hget, Option.bind_some, h.read, Option.bind_some, hk]

/-- A field that could have been left out, but was written. -/
theorem bind_defaulted {a : α} (default : α) {k : α → Option β} {b : β}
    (h : Recovers write read? a) (hget : get? fields name = some (write a)) (hk : k a = some b) :
    (defaulted fields name read? default).bind k = some b := by
  simp only [defaulted, hget, h.read, Option.bind_some, hk]

theorem nullable?_of_recovers {a : α} (h : Recovers write read? a) :
    nullable? read? (write a) = some (some a) := by
  rw [nullable?, h.read]
  · rfl
  · exact h.present

/-- A field that is written as nothing when it has no value. -/
theorem bind_optional {o : Option α} {k : Option α → Option β} {b : β}
    (h : ∀ a, o = some a → Recovers write read? a)
    (hget : get? fields name = some (ofOption write o)) (hk : k o = some b) :
    (optional fields name read?).bind k = some b := by
  have hread : nullable? read? (ofOption write o) = some o := by
    cases o with
    | none => rfl
    | some a => exact nullable?_of_recovers (h a rfl)
  simp only [optional, hget, hread, Option.bind_some, hk]

/-- A field that is left out when it has no value. -/
theorem bind_leftOut {o : Option α} {k : Option α → Option β} {b : β}
    (h : ∀ a, o = some a → Recovers write read? a) (hget : get? fields name = o.map write)
    (hk : k o = some b) : (optional fields name read?).bind k = some b := by
  have hread : optional fields name read? = some o := by
    rw [optional, hget]
    cases o with
    | none => rfl
    | some a => exact nullable?_of_recovers (h a rfl)
  rw [hread, Option.bind_some, hk]

theorem isExact_ofOption {o : Option α} (h : ∀ a, o = some a → Recovers write read? a) :
    (ofOption write o).isExact = true := by
  cases o with
  | none => rfl
  | some a => exact (h a rfl).exact

theorem fieldsExact_fieldIfAny {o : Option α} (h : ∀ a, o = some a → Recovers write read? a) :
    fieldsExact (fieldIfAny name write o) = true := by
  cases o with
  | none => rfl
  | some a =>
      rw [fieldIfAny, fieldsExact, (h a rfl).exact]
      rfl

end Fields

end Testbench.Data
