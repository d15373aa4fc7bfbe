import Mathlib.Algebra.Order.Field.Basic
import Mathlib.Data.Rat.Cast.Order
import Mathlib.Tactic.Positivity
import ProductCatalog.Product.Request

/-!
# The rules for creation requests

Four rules say which creation requests are valid.  A request that keeps them
all becomes the new product that it describes; any other is refused with one
message for each rule that it breaks, in an order that depends neither on the
request nor on the order in which the breaches were found.

Prices are compared as the exact amounts that they stand for, whatever their
scales.

## Main definitions

* `Decimal.amount` — the number that a price stands for.
* `CreateRequest.Rule` — the rules, what breaks them, and the messages.

## Main results

* `Decimal.le_iff_amount_le` — the comparison of prices is that of amounts.
* `CreateRequest.report_of_perm` — a report does not depend on the order of
  its complaints.
* `CreateRequest.validate_exact` — which requests are valid, and how all
  others are refused.
-/

namespace ProductCatalog

/-! ## Amounts -/

namespace Decimal

/-- The number that a decimal stands for. -/
def amount (d : Decimal) : ℚ := d.signedMantissa / 10 ^ d.scale

/-- Decimals are compared as numbers, whatever their scales. -/
theorem le_iff_amount_le (a b : Decimal) : a.le b = true ↔ a.amount ≤ b.amount := by
  have ha : (0 : ℚ) < 10 ^ a.scale := by positivity
  have hb : (0 : ℚ) < 10 ^ b.scale := by positivity
  rw [le, decide_eq_true_iff, amount, amount, div_le_div_iff₀ ha hb]
  exact_mod_cast Iff.rfl

end Decimal

namespace CreateRequest

/-! ## Rules -/

/-- The rules for a creation request, in the order in which breaches are reported. -/
inductive Rule
  | description
  | name
  | vendor
  | price
deriving DecidableEq

namespace Rule

/-- All rules, in the order in which breaches are reported. -/
def all : List Rule := [description, name, vendor, price]

/-- Whether a request breaks a rule. -/
def Broken (request : CreateRequest) : Rule → Prop
  | description => ∃ text ∈ request.description, 10000 < text.length
  | name => request.name.length < 1 ∨ 255 < request.name.length
  | vendor => request.vendor.length < 1 ∨ 255 < request.vendor.length
  | price => ∀ price ∈ request.price, price.amount < 0 ∨ 1000000 < price.amount

instance (request : CreateRequest) : DecidablePred (Broken request)
  | description => inferInstanceAs (Decidable (∃ text ∈ request.description, 10000 < text.length))
  | name => inferInstanceAs (Decidable (request.name.length < 1 ∨ 255 < request.name.length))
  | vendor => inferInstanceAs (Decidable (request.vendor.length < 1 ∨ 255 < request.vendor.length))
  | price => inferInstanceAs (Decidable
      (∀ price ∈ request.price, price.amount < 0 ∨ 1000000 < price.amount))

/-- What a request that breaks a rule is told. -/
def message (request : CreateRequest) : Rule → String
  | description => "description must be at most 10000 characters"
  | name => "name is required and must be at most 255 characters"
  | vendor => "vendor is required and must be at most 255 characters"
  | price =>
    if request.price = none then "price is required" else "price must be between 0 and 1000000"

/-- The field under which a breach is found. -/
def field : Rule → String
  | description => "description"
  | name => "name"
  | vendor => "vendor"
  | price => "__all__"

/-- The complaint about a request that breaks a rule. -/
def complaint (request : CreateRequest) (rule : Rule) : Complaint :=
  ⟨rule.field, rule.message request⟩

/-- The messages for all rules that a request breaks, in order. -/
def messages (request : CreateRequest) : List String :=
  (all.filter (Broken request)).map (message request)

theorem eq_of_field {rule other : Rule} (h : rule.field = other.field) : rule = other := by
  cases rule <;> cases other <;> first | rfl | exact absurd h (by decide)

end Rule

/-! ## Checks -/

section Checks

variable {request : CreateRequest}

theorem lengthComplaint_of_outside {text : String} {least greatest : Nat}
    (h : text.length < least ∨ greatest < text.length) (field message : String) :
    lengthComplaint field message least greatest text = some ⟨field, message⟩ := by
  have hlength : (decide (least ≤ text.length) && decide (text.length ≤ greatest)) = false := by
    rw [Bool.and_eq_false_iff, decide_eq_false_iff_not, decide_eq_false_iff_not]
    omega
  rw [lengthComplaint, hlength]
  rfl

theorem lengthComplaint_of_within {text : String} {least greatest : Nat}
    (h : ¬ (text.length < least ∨ greatest < text.length)) (field message : String) :
    lengthComplaint field message least greatest text = none := by
  have hlength : (decide (least ≤ text.length) && decide (text.length ≤ greatest)) = true := by
    rw [Bool.and_eq_true, decide_eq_true_iff, decide_eq_true_iff]
    omega
  rw [lengthComplaint, hlength]
  rfl

@[simp] theorem amount_minPrice : minPrice.amount = 0 := by
  simp [Decimal.amount, minPrice, Decimal.zero, Decimal.ofSmall, Decimal.signedMantissa]

@[simp] theorem amount_maxPrice : maxPrice.amount = 1000000 := by
  simp [Decimal.amount, maxPrice, Decimal.ofSmall, Decimal.signedMantissa]

/-- A price is within its bounds as an amount. -/
theorem price_within_iff (price : Decimal) :
    (minPrice.le price && price.le maxPrice) = true ↔
      ¬ (price.amount < 0 ∨ 1000000 < price.amount) := by
  rw [Bool.and_eq_true, Decimal.le_iff_amount_le, Decimal.le_iff_amount_le, amount_minPrice,
    amount_maxPrice, not_or, not_lt, not_lt]

/-- The check that looks after a rule. -/
def check (request : CreateRequest) : Rule → Option Complaint
  | .description => request.descriptionComplaint
  | .name => request.nameComplaint
  | .vendor => request.vendorComplaint
  | .price => request.priceComplaint

theorem check_of_broken {rule : Rule} (h : rule.Broken request) :
    request.check rule = some (rule.complaint request) := by
  cases rule with
  | description =>
      obtain ⟨text, htext, hlength⟩ := h
      rw [check, descriptionComplaint, Option.mem_def.1 htext]
      exact lengthComplaint_of_outside (.inr hlength) ..
  | name => exact lengthComplaint_of_outside h ..
  | vendor => exact lengthComplaint_of_outside h ..
  | price =>
      rw [check, priceComplaint, Rule.complaint, Rule.message]
      cases hprice : request.price with
      | none => rfl
      | some price =>
          have houtside : ¬ (minPrice.le price && price.le maxPrice) = true := by
            rw [price_within_iff, not_not]
            exact h price hprice
          simp only [if_neg houtside]
          rfl

theorem check_of_kept {rule : Rule} (h : ¬ rule.Broken request) : request.check rule = none := by
  cases rule with
  | description =>
      rw [check, descriptionComplaint]
      cases htext : request.description with
      | none => rfl
      | some text =>
          have hwithin : ¬ (text.length < 0 ∨ maxDescriptionLength < text.length) :=
            fun houtside => h ⟨text, htext, houtside.resolve_left (Nat.not_lt_zero _)⟩
          exact lengthComplaint_of_within hwithin ..
  | name => exact lengthComplaint_of_within h ..
  | vendor => exact lengthComplaint_of_within h ..
  | price =>
      rw [check, priceComplaint]
      cases hprice : request.price with
      | none => exact absurd (fun price hmem => nomatch hprice.symm.trans hmem) h
      | some price =>
          have hwithin : (minPrice.le price && price.le maxPrice) = true := by
            rw [price_within_iff]
            intro houtside
            refine h fun other hother => ?_
            obtain rfl := Option.some.inj (hprice.symm.trans hother)
            exact houtside
          simp only [if_pos hwithin]

/-- The complaints are those about the rules that a request breaks, in the order of the checks. -/
theorem complaints_eq (request : CreateRequest) :
    request.complaints = (([.name, .vendor, .description, .price] : List Rule).filter
      (Rule.Broken request)).map (Rule.complaint request) := by
  have hcheck : request.check = fun rule =>
      if decide (rule.Broken request) then some (rule.complaint request) else none := by
    funext rule
    by_cases h : rule.Broken request
    · rw [check_of_broken h, if_pos (decide_eq_true h)]
    · rw [check_of_kept h, if_neg (by simpa using h)]
  rw [← List.filterMap_eq_map, List.filterMap_filter]
  show ([Rule.name, .vendor, .description, .price].map request.check).filterMap id = _
  rw [List.filterMap_map, Function.id_comp, hcheck]
  rfl

end Checks

/-! ## Reports -/

namespace Complaint

variable {a b c : String}

theorem fieldLe_iff :
    fieldLe a b = true ↔
      (isGeneral a = isGeneral b ∧ a ≤ b) ∨ (isGeneral a = false ∧ isGeneral b = true) := by
  unfold fieldLe
  cases isGeneral a <;> cases isGeneral b <;> simp

theorem fieldLe_total (a b : String) : (fieldLe a b || fieldLe b a) = true := by
  rw [Bool.or_eq_true, fieldLe_iff, fieldLe_iff]
  have hnames := String.le_total a b
  grind

theorem fieldLe_trans (hab : fieldLe a b = true) (hbc : fieldLe b c = true) :
    fieldLe a c = true := by
  rw [fieldLe_iff] at *
  rcases hab with ⟨hab, hnames⟩ | ⟨ha, hb⟩ <;> rcases hbc with ⟨hbc, hnames'⟩ | ⟨hb', hc⟩
  · exact .inl ⟨hab.trans hbc, String.le_trans hnames hnames'⟩
  · exact .inr ⟨hab.trans hb', hc⟩
  · exact .inr ⟨ha, hbc.symm.trans hb⟩
  · exact .inr ⟨ha, hc⟩

theorem fieldLe_antisymm (hab : fieldLe a b = true) (hba : fieldLe b a = true) : a = b := by
  rw [fieldLe_iff] at *
  have hnames : a ≤ b → b ≤ a → a = b := String.le_antisymm
  grind

end Complaint

section Reports

variable {request : CreateRequest}

/-- The complaints about the rules that a request breaks, in the order of a report. -/
def ordered (request : CreateRequest) : List Complaint :=
  (Rule.all.filter (Rule.Broken request)).map (Rule.complaint request)

theorem ordered_perm (request : CreateRequest) : request.ordered.Perm request.complaints := by
  rw [complaints_eq, ordered]
  have hrules : Rule.all.Perm [.name, .vendor, .description, .price] := by decide
  exact (hrules.filter _).map _

theorem ordered_sorted (request : CreateRequest) :
    request.ordered.Pairwise fun c d => Complaint.fieldLe c.field d.field = true := by
  have hrules : Rule.all.Pairwise fun r r' => Complaint.fieldLe r.field r'.field = true := by
    decide
  exact List.pairwise_map.2 (hrules.filter _)

theorem eq_of_mem_ordered {c d : Complaint} (hc : c ∈ request.ordered) (hd : d ∈ request.ordered)
    (h : c.field = d.field) : c = d := by
  obtain ⟨rule, -, rfl⟩ := List.mem_map.1 hc
  obtain ⟨other, -, rfl⟩ := List.mem_map.1 hd
  rw [Rule.eq_of_field h]

theorem map_text_ordered (request : CreateRequest) :
    request.ordered.map Complaint.text = Rule.messages request := by
  rw [ordered, List.map_map]
  rfl

/-- A report depends on the complaints alone, in whatever order they were found. -/
theorem report_of_perm {found : List Complaint} (h : found.Perm request.complaints) :
    Complaint.report found = Rule.messages request := by
  have hperm := (found.mergeSort_perm fun c d => Complaint.fieldLe c.field d.field).trans
    (h.trans request.ordered_perm.symm)
  have hsorted : (found.mergeSort fun c d => Complaint.fieldLe c.field d.field).Pairwise
      fun c d => Complaint.fieldLe c.field d.field = true := by
    refine List.pairwise_mergeSort ?_ ?_ found
    · intro c d e hcd hde
      exact Complaint.fieldLe_trans hcd hde
    · intro c d
      exact Complaint.fieldLe_total c.field d.field
  have hfound : found.mergeSort (fun c d => Complaint.fieldLe c.field d.field) =
      request.ordered := by
    refine hperm.eq_of_pairwise ?_ hsorted request.ordered_sorted
    intro c d hc hd hcd hdc
    exact eq_of_mem_ordered (hperm.mem_iff.1 hc) hd (Complaint.fieldLe_antisymm hcd hdc)
  rw [Complaint.report, hfound, map_text_ordered]

end Reports

/-! ## Validation -/

/-- A request breaks no rule if and only if it describes a product within all bounds. -/
theorem kept_iff (request : CreateRequest) :
    (∀ rule, ¬ Rule.Broken request rule) ↔
      (1 ≤ request.name.length ∧ request.name.length ≤ 255) ∧
      (1 ≤ request.vendor.length ∧ request.vendor.length ≤ 255) ∧
      (∀ text ∈ request.description, text.length ≤ 10000) ∧
      ∃ price ∈ request.price, 0 ≤ price.amount ∧ price.amount ≤ 1000000 := by
  have hname : ¬ Rule.Broken request .name ↔
      1 ≤ request.name.length ∧ request.name.length ≤ 255 := by
    rw [Rule.Broken, not_or, not_lt, not_lt]
  have hvendor : ¬ Rule.Broken request .vendor ↔
      1 ≤ request.vendor.length ∧ request.vendor.length ≤ 255 := by
    rw [Rule.Broken, not_or, not_lt, not_lt]
  have hdescription : ¬ Rule.Broken request .description ↔
      ∀ text ∈ request.description, text.length ≤ 10000 := by
    simp only [Rule.Broken, not_exists, not_and, not_lt]
  have hprice : ¬ Rule.Broken request .price ↔
      ∃ price ∈ request.price, 0 ≤ price.amount ∧ price.amount ≤ 1000000 := by
    simp only [Rule.Broken, not_forall, not_or, not_lt, exists_prop]
  rw [← hname, ← hvendor, ← hdescription, ← hprice]
  constructor
  · intro h
    exact ⟨h .name, h .vendor, h .description, h .price⟩
  · rintro ⟨hname, hvendor, hdescription, hprice⟩ rule
    cases rule <;> assumption

theorem complaints_eq_nil_iff (request : CreateRequest) :
    request.complaints = [] ↔ ∀ rule, ¬ Rule.Broken request rule := by
  rw [complaints_eq, List.map_eq_nil_iff, List.filter_eq_nil_iff]
  simp only [decide_eq_true_eq]
  constructor
  · intro h rule
    cases rule <;> exact h _ (by decide)
  · intro h rule _
    exact h rule

theorem validate_of_kept {request : CreateRequest} (h : ∀ rule, ¬ Rule.Broken request rule) :
    request.validate = .ok
      ⟨request.name, request.vendor, request.description.getD "", request.price.getD minPrice⟩ := by
  rw [validate, (complaints_eq_nil_iff request).2 h]

theorem validate_of_broken {request : CreateRequest} (h : ∃ rule, Rule.Broken request rule) :
    request.validate = .error (.validation (Rule.messages request)) := by
  have hfound : request.complaints ≠ [] := by
    rw [Ne, complaints_eq_nil_iff, not_forall_not]
    exact h
  rw [validate]
  split
  · exact absurd ‹_› hfound
  · rw [report_of_perm (.refl _)]

/--
A request is valid if and only if its name and its vendor have 1 to 255
characters, its description has at most 10000 of them if it is present, and
its price is present and stands for an amount from 0 to 1000000; the new product
is then what the request gives, with the price as it is and an empty
description for an absent one.  Any other request is refused with one message
for each rule that it breaks, in the order of the rules, and the report would
be the same in whatever order the complaints had been found.
-/
theorem validate_exact (request : CreateRequest) :
    (∀ product, request.validate = .ok product ↔
      (1 ≤ request.name.length ∧ request.name.length ≤ 255) ∧
      (1 ≤ request.vendor.length ∧ request.vendor.length ≤ 255) ∧
      (∀ text ∈ request.description, text.length ≤ 10000) ∧
      ∃ price ∈ request.price, (0 ≤ price.amount ∧ price.amount ≤ 1000000) ∧
        product =
          ⟨request.name, request.vendor, request.description.getD "", price⟩) ∧
    (∀ error, request.validate = .error error ↔
      (∃ rule, Rule.Broken request rule) ∧ error = .validation (Rule.messages request)) ∧
    ∀ found, found.Perm request.complaints → Complaint.report found = Rule.messages request := by
  refine ⟨fun product => ?_, fun error => ?_, fun found => report_of_perm⟩
  · by_cases hbroken : ∃ rule, Rule.Broken request rule
    · rw [validate_of_broken hbroken]
      refine ⟨nofun, fun ⟨hname, hvendor, hdescription, price, hprice, hamount, _⟩ => ?_⟩
      obtain ⟨rule, hrule⟩ := hbroken
      exact absurd hrule ((kept_iff request).2
        ⟨hname, hvendor, hdescription, price, hprice, hamount⟩ rule)
    · rw [not_exists] at hbroken
      rw [validate_of_kept hbroken]
      obtain ⟨hname, hvendor, hdescription, price, hprice, hamount⟩ := (kept_iff request).1 hbroken
      rw [Option.mem_def] at hprice
      rw [hprice, Option.getD_some, Except.ok.injEq]
      constructor
      · rintro rfl
        exact ⟨hname, hvendor, hdescription, price, rfl, hamount, rfl⟩
      · rintro ⟨-, -, -, other, hother, -, rfl⟩
        obtain rfl := Option.some.inj hother
        rfl
  · by_cases hbroken : ∃ rule, Rule.Broken request rule
    · rw [validate_of_broken hbroken, Except.error.injEq, eq_comm]
      exact ⟨fun h => ⟨hbroken, h⟩, And.right⟩
    · rw [validate_of_kept (not_exists.1 hbroken)]
      exact ⟨nofun, fun h => absurd h.1 hbroken⟩

end CreateRequest

end ProductCatalog
