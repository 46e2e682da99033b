import Mathlib.Data.List.Nodup
import ToolchainMerge.Starlark.Call

/-!
# Calls as lists of parts

A call is built step by step, and a step may leave its argument out.  Seen as a whole it is
a name and a list of parts, one for each keyword that the constructor declares, with a value
or without (`Expr.ofParts`).  Parts without a value do not show, yet calls that agree agree in
every part (`Expr.parts_eq_of_ofParts_eq`): a keyword that is missing on one side is missing on
the other, because it could not stand anywhere else.
-/

namespace ToolchainMerge.Starlark

/-- The parts that have a value, as arguments. -/
def presentParts (parts : List (String × Option Expr)) : List (String × Expr) :=
  parts.filterMap fun part => part.2.map (part.1, ·)

/-- The call of a constructor; parts without a value are left out. -/
def Expr.ofParts (name : String) (parts : List (String × Option Expr)) : Expr :=
  .call name (presentParts parts)

/-- A text as the value of a part; an absent one is left out. -/
def textPart (value : Option String) : Option Expr :=
  value.map .str

/-- A flag as the value of a part; an unset one is left out. -/
def flagPart (enabled : Bool) : Option Expr :=
  if enabled then some (.bool true) else none

/-- A list as the value of a part; an empty one is left out. -/
def listPart (items : List Expr) : Option Expr :=
  if items.isEmpty then none else some (.list items)

/-! ## Steps -/

namespace Call

/-- A call under construction whose arguments are parts. -/
def ofParts (name : String) (parts : List (String × Option Expr)) : Call :=
  ⟨name, presentParts parts⟩

@[simp] theorem named_eq (name : String) : named name = ofParts name [] := rfl

@[simp] theorem toExpr_ofParts (name : String) (parts : List (String × Option Expr)) :
    (ofParts name parts).toExpr = .ofParts name parts := rfl

@[simp] theorem arg_ofParts (name : String) (parts : List (String × Option Expr)) (keyword : String)
    (value : Expr) :
    (ofParts name parts).arg keyword value = ofParts name (parts ++ [(keyword, some value)]) := by
  simp [arg, ofParts, presentParts]

theorem ofParts_concat_none (name : String) (parts : List (String × Option Expr))
    (keyword : String) : ofParts name (parts ++ [(keyword, none)]) = ofParts name parts := by
  simp [ofParts, presentParts]

@[simp] theorem strArg_ofParts (name : String) (parts : List (String × Option Expr))
    (keyword value : String) :
    (ofParts name parts).strArg keyword value =
      ofParts name (parts ++ [(keyword, textPart (some value))]) :=
  arg_ofParts name parts keyword (.str value)

@[simp] theorem optionalStrArg_ofParts (name : String) (parts : List (String × Option Expr))
    (keyword : String) (value : Option String) :
    (ofParts name parts).optionalStrArg keyword value =
      ofParts name (parts ++ [(keyword, textPart value)]) := by
  cases value with
  | none => exact (ofParts_concat_none name parts keyword).symm
  | some value => exact arg_ofParts name parts keyword (.str value)

@[simp] theorem flagArg_ofParts (name : String) (parts : List (String × Option Expr))
    (keyword : String) (enabled : Bool) :
    (ofParts name parts).flagArg keyword enabled =
      ofParts name (parts ++ [(keyword, flagPart enabled)]) := by
  cases enabled with
  | false => exact (ofParts_concat_none name parts keyword).symm
  | true => exact arg_ofParts name parts keyword (.bool true)

@[simp] theorem listArg_ofParts (name : String) (parts : List (String × Option Expr))
    (keyword : String) (items : List Expr) :
    (ofParts name parts).listArg keyword items =
      ofParts name (parts ++ [(keyword, listPart items)]) := by
  cases items with
  | nil => exact (ofParts_concat_none name parts keyword).symm
  | cons item items => exact arg_ofParts name parts keyword (.list (item :: items))

end Call

/-! ## Telling calls apart -/

theorem flagPart_inj {enabled enabled' : Bool} :
    flagPart enabled = flagPart enabled' ↔ enabled = enabled' := by
  cases enabled <;> cases enabled' <;> simp [flagPart]

theorem textPart_inj {value value' : Option String} :
    textPart value = textPart value' ↔ value = value' := by
  cases value <;> cases value' <;> simp [textPart]

theorem listPart_inj {items items' : List Expr} :
    listPart items = listPart items' ↔ items = items' := by
  cases items <;> cases items' <;> simp [listPart]

/-- The arguments are the parts that have a value. -/
theorem mem_presentParts {parts : List (String × Option Expr)} {argument : String × Expr} :
    argument ∈ presentParts parts ↔ (argument.1, some argument.2) ∈ parts := by
  constructor
  · intro hargument
    obtain ⟨part, hpart, hvalue⟩ := List.mem_filterMap.mp hargument
    obtain ⟨value, hsome, rfl⟩ := Option.map_eq_some_iff.mp hvalue
    rw [← hsome]
    exact hpart
  · intro hpart
    exact List.mem_filterMap.mpr ⟨_, hpart, rfl⟩

theorem keyword_mem_of_mem_presentParts {parts : List (String × Option Expr)}
    {argument : String × Expr} (hargument : argument ∈ presentParts parts) :
    argument.1 ∈ parts.map (·.1) :=
  List.mem_map_of_mem (mem_presentParts.mp hargument)

/-- Arguments of different keywords tell which parts have a value, and which. -/
theorem presentParts_inj {parts others : List (String × Option Expr)}
    (hkeywords : parts.map (·.1) = others.map (·.1)) (hnodup : (parts.map (·.1)).Nodup)
    (heq : presentParts parts = presentParts others) : parts = others := by
  induction parts generalizing others with
  | nil => exact (List.map_eq_nil_iff.mp hkeywords.symm).symm
  | cons part parts ih =>
      obtain ⟨other, others, rfl⟩ : ∃ other rest, others = other :: rest := by
        cases others with
        | nil => exact absurd hkeywords (by simp)
        | cons other rest => exact ⟨other, rest, rfl⟩
      obtain ⟨keyword, value⟩ := part
      obtain ⟨keyword', value'⟩ := other
      simp only [List.map_cons, List.cons.injEq] at hkeywords
      obtain ⟨rfl, hrest⟩ := hkeywords
      rw [List.map_cons, List.nodup_cons] at hnodup
      -- a value on one side only would be an argument with a keyword of the rest
      have hmissing : ∀ {argument : Expr} {tail : List (String × Expr)} {more},
          more.map (·.1) = parts.map (·.1) → (keyword, argument) :: tail = presentParts more →
          False := fun hmore hargs => hnodup.1 (hmore ▸
            keyword_mem_of_mem_presentParts (hargs ▸ List.mem_cons_self ..))
      cases value with
      | none =>
          cases value' with
          | none => exact congrArg _ (ih hrest hnodup.2 heq)
          | some value' => exact (hmissing rfl heq.symm).elim
      | some value =>
          cases value' with
          | none => exact (hmissing hrest.symm heq).elim
          | some value' =>
              have hcons : (keyword, value) :: presentParts parts =
                  (keyword, value') :: presentParts others := heq
              simp only [List.cons.injEq, Prod.mk.injEq, true_and] at hcons
              rw [hcons.1, ih hrest hnodup.2 hcons.2]

/-- **Calls that agree agree in every part.** -/
theorem Expr.parts_eq_of_ofParts_eq {name : String} {parts others : List (String × Option Expr)}
    (heq : Expr.ofParts name parts = .ofParts name others)
    (hkeywords : parts.map (·.1) = others.map (·.1)) (hnodup : (parts.map (·.1)).Nodup) :
    parts = others := by
  rw [Expr.ofParts, Expr.ofParts, Expr.call.injEq] at heq
  exact presentParts_inj hkeywords hnodup heq.2

end ToolchainMerge.Starlark
