import EkKor.Ekkl.Checker
import EkKor.Ekkl.Related
import EkKor.Lib.Keyed

/-!
# The order of the items of a program

The initialiser of a constant is evaluated when its item is loaded, with the items before it.

* `bareState`       the built-in constants and variants, but for the names of some constants;
* `StandsAlone`     an initialiser that needs no item of the program;
* `loads_of_values` the items load where these initialisers have values;
* `itemOrder`       the order of the items does not matter.
-/

namespace EkKor
namespace Ekkl
open List

/-! ## what an evaluation keeps -/

theorem Knows.refl (e : Evaluator) : Knows anyUses (fun _ => False) (fun _ => False) e e :=
  ⟨fun _ _ _ => .inl rfl, fun _ => .inl rfl, fun _ f _ => blockWithin_any f.body⟩

variable {e e' : Evaluator} {vars fns : String → Prop} {fuel fuel' : Nat} {expr : Expr} {v : Value}
  {c : ConstDef}

theorem Beside.of_knows (h : e.callStack = e'.callStack) : Beside e e' e.callStack.length e e' := ⟨h, rfl, ⟨rfl, rfl, rfl⟩, ⟨rfl, rfl, rfl⟩⟩

theorem evalExpr_follows (hknows : Knows anyUses vars fns e e')
    (hstack : e.callStack = e'.callStack) (hle : fuel ≤ fuel') {s : Evaluator}
    (h : evalExpr fuel expr e = (.ok v, s)) :
    ∃ s', evalExpr fuel' expr e' = (.ok v, s') ∧ s'.callStack.length = e.callStack.length ∧
      SameItems s' e' := by
  have hfollows := (followsAt True hknows hle (.inr trivial)).expr (exprWithin_any expr)
    e e' (.of_knows hstack)
  rw [h] at hfollows
  rcases hfollows with hskip | hagree
  · exact hskip.elim
  · generalize evalExpr fuel' expr e' = out at hagree ⊢
    obtain ⟨v' | _ | _ | _, s'⟩ := out
    · obtain ⟨rfl, hbeside⟩ := hagree
      exact ⟨s', rfl, by rw [← hbeside.callStack, hbeside.depth], hbeside.right⟩
    · exact hagree.elim
    · exact hagree.elim
    · exact hagree.elim

theorem evalExpr_leads (hknows : Knows anyUses vars fns e e') (hstack : e.callStack = e'.callStack)
    (hfree : ∀ err, (evalExpr fuel expr e).1 = .error err → ¬Lacks vars fns err) :
    (evalExpr fuel expr e).1 = (evalExpr fuel expr e').1 := by
  have hfollows := (followsAt False hknows (Nat.le_refl fuel) (.inl rfl)).expr
    (exprWithin_any expr) e e' (.of_knows hstack)
  rcases hfollows with hskip | hagree
  · generalize evalExpr fuel expr e = out at hskip hfree
    obtain ⟨_ | err | _ | _, s⟩ := out
    · exact hskip.elim
    · exact absurd hskip (hfree err rfl)
    · exact hskip.elim
    · exact hskip.elim
  · exact hagree.fst

theorem evalExpr_more (hle : fuel ≤ fuel') (hends : (evalExpr fuel expr e).1 ≠ .outOfFuel) :
    (evalExpr fuel expr e).1 = (evalExpr fuel' expr e).1 := by
  have hfollows := (followsAt True (Knows.refl e) hle (.inr trivial)).expr
    (exprWithin_any expr) e e (.of_knows rfl)
  rcases hfollows with hskip | hagree
  · generalize evalExpr fuel expr e = out at hskip hends
    obtain ⟨_ | err | _ | _, s⟩ := out
    · exact hskip.elim
    · cases err <;> exact hskip.elim
    · exact hskip.elim
    · exact absurd rfl hends
  · exact hagree.fst

theorem call_follows (hknows : Knows anyUses (fun _ => False) (fun _ => False) e e')
    (hstack : e.callStack = e'.callStack) (fuel : Nat) (name : String) (args : List Value) :
    (call fuel name args e).1 = (call fuel name args e').1 := by
  have hfollows := (followsAt False hknows (Nat.le_refl fuel) (.inl rfl)).call name args
    e e' (.of_knows hstack)
  rcases hfollows with hskip | hagree
  · generalize call fuel name args e = out at hskip
    obtain ⟨_ | err | _ | _, s⟩ := out
    · exact hskip.elim
    · cases err <;> exact hskip.elim
    · exact hskip.elim
    · exact hskip.elim
  · exact hagree.fst

/-! ## items -/

def Item.name : Item → String
  | .fnDef f => f.name
  | .structDef s => s.name
  | .enumDef e => e.name
  | .constDef c => c.name

def constDef? : Item → Option ConstDef
  | .constDef c => some c
  | _ => none

def fnDef? : Item → Option FnDef
  | .fnDef f => some f
  | _ => none

def constants (items : List Item) : List ConstDef := items.filterMap constDef?

def functions (items : List Item) : List FnDef := items.filterMap fnDef?

def constNames (items : List Item) : List String := (constants items).map ConstDef.name

def fnNames (items : List Item) : List String := (functions items).map FnDef.name

def bareState (enums : List (String × List String)) (names : List String) : Evaluator :=
  { Evaluator.new (enums.map fun e => (e.1, e.2.filter fun v => !names.contains v)) with
    globals := initConstants.filter fun c => !names.contains c.1 }

variable {enums : List (String × List String)} {names funcs : List String}

theorem bareState_find (name : String) :
    ((enums.map fun e => (e.1, e.2.filter fun v => !names.contains v)).find?
      fun e => e.2.contains name).map (fun e => (e.1, name)) =
    if name ∈ names then none
      else (enums.find? fun e => e.2.contains name).map fun e => (e.1, name) := by
  have hmem (e : String × List String) : ((e.2.filter fun v => !names.contains v).contains name) =
      (e.2.contains name && !names.contains name) := by
    rw [Bool.eq_iff_iff, contains_iff_mem, mem_filter, Bool.and_eq_true,
      contains_iff_mem]
  rw [find?_map, Option.map_map]
  split_ifs with hname
  · have hnone : enums.find? ((fun e : String × List String => e.2.contains name) ∘
        fun e : String × List String => (e.1, e.2.filter fun v => !names.contains v)) = none := by
      refine find?_eq_none.mpr fun e _ => ?_
      rw [Function.comp_apply, hmem, contains_iff_mem.mpr hname, Bool.not_true, Bool.and_false]
      exact Bool.false_ne_true
    rw [hnone]
    rfl
  · have hsame : ((fun e : String × List String => e.2.contains name) ∘
        fun e : String × List String => (e.1, e.2.filter fun v => !names.contains v)) =
          fun e => e.2.contains name := by
      funext e
      rw [Function.comp_apply, hmem, Bool.eq_false_iff.mpr fun h => hname (contains_iff_mem.mp h),
        Bool.not_false, Bool.and_true]
    rw [hsame]
    rfl

theorem bareState_global {name : String} (hpath : splitPath name.toList = none) :
    (bareState enums names).global name =
      if name ∈ names then none else (Evaluator.new enums).global name := by
  unfold Evaluator.global
  rw [isEnumVariant_plain hpath, isEnumVariant_plain hpath]
  show ((initConstants.filter fun c => !names.contains c.1).lookup name).or
      ((((enums.map fun e => (e.1, e.2.filter fun v => !names.contains v)).find?
        fun e => e.2.contains name).map fun e => (e.1, name)).map fun p => Value.enum p.1 name) = _
  rw [bareState_find, Keyed.pairs_filter initConstants (fun c => !names.contains c)]
  split_ifs with hnot hname hname
  · rw [contains_iff_mem.mpr hname] at hnot
    cases hnot
  · rfl
  · rfl
  · rw [Bool.not_eq_true, Bool.not_eq_false', contains_iff_mem] at hnot
    exact absurd hnot hname

/-- a state while the items of a program are loaded -/
structure Loading (enums : List (String × List String)) (names funcs : List String) (t : Evaluator) :
    Prop where
  callStack : t.callStack = []
  enums : t.enums = enums
  globals : ∀ name, name ∉ names → t.globals.lookup name = initConstants.lookup name
  functions : ∀ name, name ∉ funcs → t.functions.lookup name = none

theorem Loading.new : Loading enums names funcs (Evaluator.new enums) :=
  ⟨rfl, rfl, fun _ _ => rfl, fun _ _ => rfl⟩

theorem Loading.knows {t : Evaluator} (h : Loading enums names funcs t) :
    Knows anyUses (· ∈ names) (· ∈ funcs) (bareState enums names) t := by
  refine ⟨fun name _ hpath => ?_, fun name => ?_, fun name f hf => ?_⟩
  · by_cases hname : name ∈ names
    · exact .inr ⟨(bareState_global hpath).trans (if_pos hname), hname⟩
    · refine .inl (((bareState_global hpath).trans (if_neg hname)).trans ?_)
      unfold Evaluator.global
      rw [h.enums, h.globals name hname]
      rfl
  · by_cases hname : name ∈ funcs
    · exact .inr ⟨rfl, hname⟩
    · exact .inl (h.functions name hname).symm
  · cases hf

/-! ## loading -/

def valueAlone (enums : List (String × List String)) (names : List String) (fuel : Nat)
    (c : ConstDef) : Option Value :=
  match (evalExpr fuel c.value (bareState enums names)).1 with
  | .ok v => some v
  | _ => none

theorem valueAlone_eq_some :
    valueAlone enums names fuel c = some v ↔
      (evalExpr fuel c.value (bareState enums names)).1 = .ok v := by
  unfold valueAlone
  generalize (evalExpr fuel c.value (bareState enums names)).1 = r
  cases r with
  | ok v' => exact ⟨by rintro ⟨⟩; rfl, by rintro ⟨⟩; rfl⟩
  | _ => exact iff_of_false (by rintro ⟨⟩) (by rintro ⟨⟩)

def loadedGlobals (enums : List (String × List String)) (names : List String) (fuel : Nat)
    (items : List Item) : List (String × Value) :=
  (constants items).map fun c => (c.name, (valueAlone enums names fuel c).getD .unit)

def loadedFunctions (items : List Item) : List (String × FnDef) :=
  (functions items).map fun f => (f.name, f)

/-- what is loaded stands in front of what was there -/
structure Loaded (enums : List (String × List String)) (names funcs : List String) (fuel : Nat)
    (items : List Item) (t s : Evaluator) : Prop where
  loading : Loading enums names funcs s
  globals : s.globals = (loadedGlobals enums names fuel items).reverse ++ t.globals
  functions : s.functions = (loadedFunctions items).reverse ++ t.functions

variable {item : Item} {items : List Item} {t s : Evaluator}

theorem Loading.cons_function (h : Loading enums names funcs t) {f : FnDef} (hf : f.name ∈ funcs) :
    Loading enums names funcs { t with functions := (f.name, f) :: t.functions } := by
  refine ⟨h.callStack, h.enums, h.globals, fun name hname => ?_⟩
  have hne : (name == f.name) = false := beq_eq_false_iff_ne.mpr fun he => hname (he ▸ hf)
  rw [lookup_cons, hne]
  exact h.functions name hname

theorem Loading.cons_constant (h : Loading enums names funcs t) {name : String} (value : Value)
    (hname : name ∈ names) :
    Loading enums names funcs { t with globals := (name, value) :: t.globals } := by
  refine ⟨h.callStack, h.enums, fun name' hname' => ?_, h.functions⟩
  have hne : (name' == name) = false := beq_eq_false_iff_ne.mpr fun he => hname' (he ▸ hname)
  rw [lookup_cons, hne]
  exact h.globals name' hname'

theorem Loading.evalExpr (h : Loading enums names funcs t)
    (hv : valueAlone enums names fuel c = some v) :
    ∃ s, Ekkl.evalExpr fuel c.value t = (.ok v, s) ∧ Loading enums names funcs s ∧ SameItems s t := by
  rw [valueAlone_eq_some] at hv
  obtain ⟨s, hs, hdepth, hsame⟩ := evalExpr_follows h.knows h.callStack.symm (Nat.le_refl fuel)
    (Prod.ext hv rfl)
  refine ⟨s, hs, ⟨length_eq_zero_iff.mp hdepth, hsame.enums.trans h.enums, fun name hname => ?_,
    fun name hname => ?_⟩, hsame⟩
  · rw [hsame.globals]
    exact h.globals name hname
  · rw [hsame.functions]
    exact h.functions name hname

theorem load_ok (h : Loading enums names funcs t) (hnames : ∀ c ∈ constants items, c.name ∈ names)
    (hfuncs : ∀ f ∈ functions items, f.name ∈ funcs)
    (hvalues : ∀ c ∈ constants items, (valueAlone enums names fuel c).isSome = true) :
    ∃ s, items.foldlM (fun _ item => loadItem fuel item) () t = (.ok (), s) ∧
      Loaded enums names funcs fuel items t s := by
  induction items generalizing t with
  | nil => exact ⟨t, rfl, h, rfl, rfl⟩
  | cons item items ih =>
    cases item with
    | fnDef f =>
      obtain ⟨s, hs, hloaded⟩ := ih (h.cons_function (hfuncs f mem_cons_self)) hnames
        (fun g hg => hfuncs g (mem_cons_of_mem _ hg)) hvalues
      refine ⟨s, (Eff.bind_ok rfl).trans hs, hloaded.loading, hloaded.globals, ?_⟩
      rw [hloaded.functions]
      show _ = ((f.name, f) :: loadedFunctions items).reverse ++ t.functions
      rw [reverse_cons, append_assoc]
      rfl
    | constDef c =>
      obtain ⟨v, hv⟩ := Option.isSome_iff_exists.mp (hvalues c mem_cons_self)
      obtain ⟨t₁, heval, hload₁, hsame⟩ := h.evalExpr hv
      obtain ⟨s, hs, hloaded⟩ := ih (hload₁.cons_constant v (hnames c mem_cons_self))
        (fun c' hc' => hnames c' (mem_cons_of_mem _ hc')) hfuncs
        (fun c' hc' => hvalues c' (mem_cons_of_mem _ hc'))
      have hitem : loadItem fuel (.constDef c) t =
          (.ok (), { t₁ with globals := (c.name, v) :: t₁.globals }) := Eff.bind_ok heval
      refine ⟨s, (Eff.bind_ok hitem).trans hs, hloaded.loading, ?_, ?_⟩
      · rw [hloaded.globals]
        show _ = ((c.name, (valueAlone enums names fuel c).getD .unit) ::
          loadedGlobals enums names fuel items).reverse ++ t.globals
        rw [reverse_cons, append_assoc, hv, hsame.globals]
        rfl
      · rw [hloaded.functions, hsame.functions]
        rfl
    | structDef _ | enumDef _ =>
      obtain ⟨s, hs, hloaded⟩ := ih h hnames hfuncs hvalues
      exact ⟨s, (Eff.bind_ok rfl).trans hs, hloaded.loading, hloaded.globals, hloaded.functions⟩

theorem load_values (h : Loading enums names funcs t)
    (hnames : ∀ c ∈ constants items, c.name ∈ names)
    (hfuncs : ∀ f ∈ functions items, f.name ∈ funcs)
    (hfree : ∀ c ∈ constants items, ∀ err,
      (evalExpr fuel c.value (bareState enums names)).1 = .error err →
        ¬Lacks (· ∈ names) (· ∈ funcs) err)
    (hload : items.foldlM (fun _ item => loadItem fuel item) () t = (.ok (), s)) :
    ∀ c ∈ constants items, (valueAlone enums names fuel c).isSome = true := by
  induction items generalizing t with
  | nil => exact fun c hc => absurd hc not_mem_nil
  | cons item items ih =>
    cases item with
    | fnDef f =>
      exact ih (h.cons_function (hfuncs f mem_cons_self)) hnames
        (fun g hg => hfuncs g (mem_cons_of_mem _ hg)) hfree ((Eff.bind_ok rfl).symm.trans hload)
    | constDef c =>
      obtain ⟨_, _, hitem, -⟩ := Eff.bind_eq_ok hload
      obtain ⟨v, t', heval', -⟩ := Eff.bind_eq_ok hitem
      have hsame := evalExpr_leads h.knows h.callStack.symm (hfree c mem_cons_self)
      have hv : valueAlone enums names fuel c = some v :=
        valueAlone_eq_some.mpr (hsame.trans (congrArg Prod.fst heval'))
      obtain ⟨t₁, heval, hload₁, -⟩ := h.evalExpr hv
      have hnext : loadItem fuel (.constDef c) t =
          (.ok (), { t₁ with globals := (c.name, v) :: t₁.globals }) := Eff.bind_ok heval
      have hrest := ih (hload₁.cons_constant v (hnames c mem_cons_self))
        (fun c' hc' => hnames c' (mem_cons_of_mem _ hc')) hfuncs
        (fun c' hc' => hfree c' (mem_cons_of_mem _ hc')) ((Eff.bind_ok hnext).symm.trans hload)
      refine forall_mem_cons.mpr ⟨?_, hrest⟩
      rw [hv]
      rfl
    | structDef _ | enumDef _ => exact ih h hnames hfuncs hfree ((Eff.bind_ok rfl).symm.trans hload)

/-! ## all orders -/

def Loads (enums : List (String × List String)) (items : List Item) (s : Evaluator) : Prop :=
  ∃ fuel, loadProgram fuel ⟨items⟩ (Evaluator.new enums) = (.ok (), s)

/-- the constants have the same values and all calls give the same results -/
structure SameResults (s s' : Evaluator) : Prop where
  constant : ∀ name, s.globals.lookup name = s'.globals.lookup name
  call : ∀ fuel name args, (Ekkl.call fuel name args s).1 = (Ekkl.call fuel name args s').1

/-- both orders load or none does, with the same results -/
structure SameOrders (enums : List (String × List String)) (items items' : List Item) : Prop where
  loads : (∃ s, Loads enums items s) ↔ ∃ s', Loads enums items' s'
  results : ∀ s s', Loads enums items s → Loads enums items' s' → SameResults s s'

def StandsAlone (enums : List (String × List String)) (items : List Item) (c : ConstDef) : Prop :=
  ∀ fuel err, (evalExpr fuel c.value (bareState enums (constNames items))).1 = .error err →
    ¬Lacks (· ∈ constNames items) (· ∈ fnNames items) err

variable {items' : List Item}

theorem perm_constants (hperm : items'.Perm items) : (constants items').Perm (constants items) :=
  hperm.filterMap constDef?

theorem perm_functions (hperm : items'.Perm items) : (functions items').Perm (functions items) :=
  hperm.filterMap fnDef?

theorem loads_values (halone : ∀ c ∈ constants items, StandsAlone enums items c)
    (hperm : items'.Perm items) (h : Loads enums items' s) :
    ∃ fuel, (∀ c ∈ constants items, (valueAlone enums (constNames items) fuel c).isSome = true) ∧
      Loaded enums (constNames items) (fnNames items) fuel items' (Evaluator.new enums) s := by
  obtain ⟨fuel, hload⟩ := h
  have hconst (c : ConstDef) (hc : c ∈ constants items') : c ∈ constants items :=
    (perm_constants hperm).mem_iff.mp hc
  have hfunc (f : FnDef) (hf : f ∈ functions items') : f ∈ functions items :=
    (perm_functions hperm).mem_iff.mp hf
  have hnames (c : ConstDef) (hc : c ∈ constants items') : c.name ∈ constNames items :=
    mem_map_of_mem (hconst c hc)
  have hfuncs (f : FnDef) (hf : f ∈ functions items') : f.name ∈ fnNames items :=
    mem_map_of_mem (hfunc f hf)
  have hvalues := load_values Loading.new hnames hfuncs (fun c hc => halone c (hconst c hc) fuel) hload
  obtain ⟨s', hload', hloaded⟩ := load_ok Loading.new hnames hfuncs hvalues
  change loadProgram fuel ⟨items'⟩ (Evaluator.new enums) = _ at hload'
  rw [hload] at hload'
  cases hload'
  exact ⟨fuel, fun c hc => hvalues c ((perm_constants hperm).mem_iff.mpr hc), hloaded⟩

theorem loads_of_values (hperm : items'.Perm items)
    (hvalues : ∀ c ∈ constants items, (valueAlone enums (constNames items) fuel c).isSome = true) :
    ∃ s, Loads enums items' s := by
  have hnames (c : ConstDef) (hc : c ∈ constants items') : c.name ∈ constNames items :=
    mem_map_of_mem ((perm_constants hperm).mem_iff.mp hc)
  have hfuncs (f : FnDef) (hf : f ∈ functions items') : f.name ∈ fnNames items :=
    mem_map_of_mem ((perm_functions hperm).mem_iff.mp hf)
  obtain ⟨s, hload, -⟩ := load_ok Loading.new hnames hfuncs
    fun c hc => hvalues c ((perm_constants hperm).mem_iff.mp hc)
  exact ⟨s, fuel, hload⟩

theorem valueAlone_more (hle : fuel ≤ fuel') (h : valueAlone enums names fuel c = some v) :
    valueAlone enums names fuel' c = some v := by
  obtain ⟨s, hs, -, -⟩ := evalExpr_follows (Knows.refl (bareState enums names)) rfl hle
    (Prod.ext (valueAlone_eq_some.mp h) rfl)
  exact valueAlone_eq_some.mpr (congrArg Prod.fst hs)

theorem loadedGlobals_eq (h : ∀ c ∈ constants items, (valueAlone enums names fuel c).isSome = true)
    (h' : ∀ c ∈ constants items, (valueAlone enums names fuel' c).isSome = true) :
    loadedGlobals enums names fuel items = loadedGlobals enums names fuel' items := by
  refine map_congr_left fun c hc => ?_
  obtain ⟨v, hv⟩ := Option.isSome_iff_exists.mp (h c hc)
  obtain ⟨v', hv'⟩ := Option.isSome_iff_exists.mp (h' c hc)
  have hmax := valueAlone_more (Nat.le_max_left fuel fuel') hv
  rw [valueAlone_more (Nat.le_max_right fuel fuel') hv'] at hmax
  rw [hv, hv', hmax]

theorem sameResults_of_lookup {s' : Evaluator} (hstack : s.callStack = s'.callStack)
    (henums : s.enums = s'.enums) (hglobals : ∀ name, s.globals.lookup name = s'.globals.lookup name)
    (hfunctions : ∀ name, s.functions.lookup name = s'.functions.lookup name) : SameResults s s' := by
  refine ⟨hglobals, fun fuel name args => call_follows ⟨fun name _ _ => .inl ?_, fun name =>
    .inl (hfunctions name), fun _ f _ => blockWithin_any f.body⟩ hstack fuel name args⟩
  unfold Evaluator.global
  rw [hglobals, henums]

theorem constNames_sublist (items : List Item) :
    (constNames items).Sublist (items.map Item.name) := by
  induction items with
  | nil => exact .slnil
  | cons item items ih =>
    cases item with
    | constDef c => exact ih.cons_cons c.name
    | _ => exact ih.cons _

theorem fnNames_sublist (items : List Item) : (fnNames items).Sublist (items.map Item.name) := by
  induction items with
  | nil => exact .slnil
  | cons item items ih =>
    cases item with
    | fnDef f => exact ih.cons_cons f.name
    | _ => exact ih.cons _

theorem lookup_reverse_perm {β : Type} {l l' : List (String × β)} (hn : (l.map Prod.fst).Nodup)
    (hp : l'.Perm l) (rest : List (String × β)) (name : String) :
    (l.reverse ++ rest).lookup name = (l'.reverse ++ rest).lookup name := by
  rw [lookup_append, lookup_append]
  have hrev : (l.reverse.map Prod.fst).Nodup := by
    rw [map_reverse, nodup_reverse]
    exact hn
  rw [Keyed.pairs_perm hrev
    ((reverse_perm l).trans (hp.symm.trans (reverse_perm l').symm)) name]

theorem sameOrders_of_alone (hdistinct : (items.map Item.name).Nodup)
    (halone : ∀ c ∈ constants items, StandsAlone enums items c) (hperm : items'.Perm items) :
    SameOrders enums items items' := by
  refine ⟨⟨fun ⟨s, hs⟩ => ?_, fun ⟨s', hs'⟩ => ?_⟩, fun s s' hs hs' => ?_⟩
  · obtain ⟨fuel, hvalues, -⟩ := loads_values halone (List.Perm.refl items) hs
    exact loads_of_values hperm hvalues
  · obtain ⟨fuel, hvalues, -⟩ := loads_values halone hperm hs'
    exact loads_of_values (List.Perm.refl items) hvalues
  · obtain ⟨fuel, hvalues, hloaded⟩ := loads_values halone (List.Perm.refl items) hs
    obtain ⟨fuel', hvalues', hloaded'⟩ := loads_values halone hperm hs'
    refine sameResults_of_lookup (hloaded.loading.callStack.trans hloaded'.loading.callStack.symm)
      (hloaded.loading.enums.trans hloaded'.loading.enums.symm) (fun name => ?_) fun name => ?_
    · rw [hloaded.globals, hloaded'.globals, loadedGlobals_eq hvalues hvalues']
      refine lookup_reverse_perm ?_ ((perm_constants hperm).map _) _ name
      rw [map_map]
      exact hdistinct.sublist (constNames_sublist items)
    · rw [hloaded.functions, hloaded'.functions]
      refine lookup_reverse_perm ?_ ((perm_functions hperm).map _) _ name
      rw [map_map]
      exact hdistinct.sublist (fnNames_sublist items)

/-! ## constants that need an item -/

def NewNames (enums : List (String × List String)) (items : List Item) : Prop :=
  ∀ name ∈ constNames items, (Evaluator.new enums).global name = none

theorem bareState_knows (hnew : NewNames enums items) : Knows anyUses (fun _ => False)
    (fun _ => False) (bareState enums (constNames items)) (Evaluator.new enums) := by
  refine ⟨fun name _ hpath => .inl ?_, fun _ => .inl rfl, fun _ f _ => blockWithin_any f.body⟩
  rw [bareState_global hpath]
  split_ifs with hname
  · exact (hnew name hname).symm
  · rfl

theorem not_loads_of_needs (hnew : NewNames enums items) (hc : ¬StandsAlone enums items c)
    (rest : List Item) : ¬Loads enums (.constDef c :: rest) s := by
  rintro ⟨fuel', hload⟩
  refine hc fun fuel err herr hlacks => ?_
  obtain ⟨_, _, hitem, -⟩ := Eff.bind_eq_ok (show (loadItem fuel' (.constDef c) >>= fun _ =>
    rest.foldlM (fun _ item => loadItem fuel' item) ()) (Evaluator.new enums) = _ from hload)
  obtain ⟨v, t, heval, -⟩ := Eff.bind_eq_ok hitem
  have hnone : (evalExpr fuel c.value (Evaluator.new enums)).1 = .error err := by
    rw [← evalExpr_leads (bareState_knows hnew) rfl fun err' _ hlacks' => ?_, herr]
    cases err' <;> exact hlacks'
  have hsome : (evalExpr fuel' c.value (Evaluator.new enums)).1 = .ok v := congrArg Prod.fst heval
  rcases Nat.le_total fuel fuel' with hle | hle
  · have hmore : (evalExpr fuel c.value (Evaluator.new enums)).1 = _ :=
      evalExpr_more hle (by rw [hnone]; rintro ⟨⟩)
    rw [hnone, hsome] at hmore
    cases hmore
  · have hmore : (evalExpr fuel' c.value (Evaluator.new enums)).1 = _ :=
      evalExpr_more hle (by rw [hsome]; rintro ⟨⟩)
    rw [hnone, hsome] at hmore
    cases hmore

def OrderFree (enums : List (String × List String)) (items : List Item) : Prop :=
  ∀ items', items'.Perm items → SameOrders enums items items'

def NeverLoads (enums : List (String × List String)) (items : List Item) : Prop :=
  ∀ items', items'.Perm items → ¬∃ s, Loads enums items' s

theorem orderFree_of_neverLoads (h : NeverLoads enums items) : OrderFree enums items := by
  intro items' hperm
  have hnone := h items (List.Perm.refl items)
  exact ⟨iff_of_false hnone (h items' hperm), fun s _ hs => absurd ⟨s, hs⟩ hnone⟩

theorem alone_of_orderFree (hnew : NewNames enums items) (hfree : OrderFree enums items) :
    (∀ c ∈ constants items, StandsAlone enums items c) ∨ NeverLoads enums items := by
  by_cases hloads : ∃ s, Loads enums items s
  · refine .inl fun c hc => ?_
    by_contra hneeds
    obtain ⟨item, hitem, hconst⟩ := mem_filterMap.mp hc
    obtain rfl : item = .constDef c := by
      cases item <;> cases hconst
      rfl
    obtain ⟨before, after, hsplit⟩ := append_of_mem hitem
    have hfirst : (Item.constDef c :: (before ++ after)).Perm items := by
      rw [hsplit]
      exact perm_middle.symm
    obtain ⟨s, hs⟩ := (hfree _ hfirst).loads.mp hloads
    exact not_loads_of_needs hnew hneeds _ hs
  · exact .inr fun items' hperm h => hloads ((hfree items' hperm).loads.mpr h)

/-- **Main.** The order of the items of a program does not matter if no initialiser of a constant needs
a constant or a function of the program.  Where no constant has the name of something built in, this
is the only case, but for programs that load in no order. -/
theorem itemOrder (enums : List (String × List String)) {items : List Item}
    (hdistinct : (items.map Item.name).Nodup) :
    ((∀ c ∈ constants items, StandsAlone enums items c) → OrderFree enums items) ∧
      (NewNames enums items → (OrderFree enums items ↔
        (∀ c ∈ constants items, StandsAlone enums items c) ∨ NeverLoads enums items)) := by
  have halone (h : ∀ c ∈ constants items, StandsAlone enums items c) : OrderFree enums items :=
    fun _ hperm => sameOrders_of_alone hdistinct h hperm
  exact ⟨halone, fun hnew => ⟨alone_of_orderFree hnew, fun h => h.elim halone orderFree_of_neverLoads⟩⟩

/-- `fn limit() -> i64 { return LIMIT }`, before `const LIMIT: i64 = 3` -/
def limitItems : List Item :=
  [.fnDef ⟨"limit", [], some .i64, [.ret (some (.ident "LIMIT"))]⟩,
    .constDef ⟨"LIMIT", .i64, .literal (.int 3)⟩]

theorem itemOrder_limit : OrderFree builtinEnums limitItems := by
  refine (itemOrder builtinEnums (by decide)).1 fun c hc => ?_
  obtain rfl := mem_singleton.mp hc
  intro fuel err herr
  cases fuel with
  | zero => cases herr
  | succ fuel => cases herr

/-- `const A: i64 = 1` and `const B: i64 = A + 1` -/
def pairItems : List Item :=
  [.constDef ⟨"A", .i64, .literal (.int 1)⟩,
    .constDef ⟨"B", .i64, .binary .add (.ident "A") (.literal (.int 1))⟩]

/-- the checker accepts the program, and its items load in this order only -/
theorem not_orderFree : (pairItems.map Item.name).Nodup ∧
    (∃ env, typeCheck id ⟨pairItems⟩ = .ok env) ∧ ¬OrderFree builtinEnums pairItems := by
  refine ⟨by decide, ⟨_, rfl⟩, fun h => ?_⟩
  have hnew : NewNames builtinEnums pairItems := by
    intro name hname
    rcases mem_cons.mp hname with rfl | hname
    · rfl
    · obtain rfl := mem_singleton.mp hname
      rfl
  obtain ⟨s, hs⟩ := (h pairItems.reverse pairItems.reverse_perm).loads.mp ⟨_, 5, rfl⟩
  refine not_loads_of_needs hnew (fun halone => ?_) _ hs
  exact halone 5 (.undefinedVariable "A") rfl mem_cons_self

end Ekkl
end EkKor
