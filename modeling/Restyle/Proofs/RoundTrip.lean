import Mathlib.Data.List.Nodup
import Restyle.Proofs.Casing
import Restyle.Proofs.Rendering
import Restyle.Proofs.RuleKeys
import Restyle.Proofs.Units
import Restyle.Style.ToCss

/-!
# Classes there and back

Style objects that hold one flat object for each class, and style rules that each have one class as
their selector, say the same.  The rules of such an object are written down by `toCss` and read back by
the parser (`reads_toCss`), and `ofRules` gives every one of them an object of its own
(`ofRules_classRules`).  Neither the names of properties nor their values lose anything on the way, but
for the sign of zero, which does not make numbers different.
-/

namespace Restyle

/-- Numbers are equal if they are the same or zeros of either sign.  What is undefined equals
nothing. -/
def Double.Equal : Double → Double → Prop
  | .finite negative code, .finite negative' code' =>
    code = code' ∧ (negative = negative' ∨ code.val = 0)
  | .infinite negative, .infinite negative' => negative = negative'
  | _, _ => False

theorem Double.unsignedZero_equal {n : Double} (h : n.isFinite = true) : n.unsignedZero.Equal n := by
  cases n with
  | nan => cases h
  | infinite => cases h
  | finite negative code =>
    refine ⟨rfl, ?_⟩
    by_cases hzero : code.val = 0
    · exact .inr hzero
    · exact .inl (by simp [hzero])

theorem Double.isFinite_of_toInt? {n : Double} {i : Int} (h : n.toInt? = some i) :
    n.isFinite = true := by
  cases n with
  | nan => cases h
  | infinite => cases h
  | finite => rfl

namespace Style

open Css (Rule Declaration DeclarationEntry Stylesheet ReadOptions Location Reads ReadsInside
  readRules readDeclarations isSpace)

mutual

/-- Style values are equal if they are built in the same way, keys in the same order, with the same
texts and with equal numbers. -/
inductive Value.Equal : Value → Value → Prop
  | scalar (text : String) : Value.Equal (.scalar text) (.scalar text)
  | number {m n : Double} (h : m.Equal n) : Value.Equal (.number m) (.number n)
  | nested {es fs : List (String × Value)} (h : Object.Equal es fs) :
    Value.Equal (.nested es) (.nested fs)
  | fallbacks {es fs : List (List (String × Value))} (h : Object.EqualAll es fs) :
    Value.Equal (.fallbacks es) (.fallbacks fs)
  | list {vs ws : List Value} (h : Value.EqualAll vs ws) : Value.Equal (.list vs) (.list ws)
  | boolean (b : Bool) : Value.Equal (.boolean b) (.boolean b)
  | null : Value.Equal .null .null

inductive Value.EqualAll : List Value → List Value → Prop
  | nil : Value.EqualAll [] []
  | cons {v w : Value} {vs ws : List Value} (h : Value.Equal v w) (hs : Value.EqualAll vs ws) :
    Value.EqualAll (v :: vs) (w :: ws)

inductive Object.Equal : List (String × Value) → List (String × Value) → Prop
  | nil : Object.Equal [] []
  | cons (key : String) {v w : Value} {es fs : List (String × Value)} (h : Value.Equal v w)
    (hs : Object.Equal es fs) : Object.Equal ((key, v) :: es) ((key, w) :: fs)

inductive Object.EqualAll : List (List (String × Value)) → List (List (String × Value)) → Prop
  | nil : Object.EqualAll [] []
  | cons {es fs : List (String × Value)} {ess fss : List (List (String × Value))}
    (h : Object.Equal es fs) (hs : Object.EqualAll ess fss) : Object.EqualAll (es :: ess) (fs :: fss)

end

theorem Object.equal_map {α : Type} {entry entry' : α → String × Value} {items : List α}
    (h : ∀ i ∈ items, (entry i).1 = (entry' i).1 ∧ (entry i).2.Equal (entry' i).2) :
    Object.Equal (items.map entry) (items.map entry') := by
  induction items with
  | nil => exact .nil
  | cons i items ih =>
    obtain ⟨hkey, hvalue⟩ := h i List.mem_cons_self
    rw [List.map_cons, List.map_cons, ← Prod.mk.eta (p := entry i), hkey]
    exact .cons _ hvalue (ih fun j hj => h j (List.mem_cons_of_mem _ hj))

/-! ## Classes -/

/-- A letter or an underscore with letters, digits, underscores and hyphens behind it. -/
def isClassName (name : String) : Bool :=
  name.toList.head?.any (fun c => c.isAlpha || c == '_') &&
    name.toList.all fun c => c.isAlphanum || c == '_' || c == '-'

/-- Classes of different names, of which no one holds anything under the same key twice. -/
structure AreClasses {α : Type} (key : α → String) (classes : Entries (List α)) : Prop where
  names : ∀ c ∈ classes, isClassName c.1 = true
  distinct : classes.keys.Nodup
  keys : ∀ c ∈ classes, (c.2.map key).Nodup

theorem AreClasses.map {α β : Type} {key : α → String} {key' : β → String} {f : α → β}
    {classes : Entries (List α)} (h : AreClasses key classes)
    (hkeys : ∀ c ∈ classes, (c.2.map f).map key' = c.2.map key) :
    AreClasses key' (classes.map fun c => (c.1, c.2.map f)) := by
  refine ⟨?_, ?_, ?_⟩
  · intro c hc
    obtain ⟨d, hd, rfl⟩ := List.mem_map.1 hc
    exact h.names d hd
  · rw [Entries.keys, List.map_map]
    exact h.distinct
  · intro c hc
    obtain ⟨d, hd, rfl⟩ := List.mem_map.1 hc
    rw [hkeys d hd]
    exact h.keys d hd

theorem map_map_id {α : Type} (classes : Entries (List α)) :
    classes.map (fun c => (c.1, c.2.map id)) = classes := by
  simp only [List.map_id]
  exact List.map_id classes

/-- The rules of classes. -/
def classRules (classes : Entries (List Declaration)) : List Rule :=
  classes.map fun c => .style ["." ++ c.1] (c.2.map .declaration)

/-- The style object of classes. -/
def classStyles (classes : Entries Object) : Object :=
  classes.map fun c => (c.1, .nested c.2)

/-- A text that opens and ends nothing and has no white space around it. -/
def IsSafe (text : String) : Prop :=
  Text.trim text.toList = text.toList ∧ Css.Token.Inert text.toList

/-- A value that stays what it is in a style sheet: a safe text that is not taken for a number of
pixels, or a whole number up to the greatest one below which every whole number is a double. -/
def IsMeasure : Value → Prop
  | .scalar text => IsSafe text ∧ withoutUnit text (some "px") = .scalar text
  | .number n => ∃ i, n.toInt? = some i ∧ i.natAbs ≤ 2 ^ 53
  | _ => False

/-! ## Objects of class rules -/

theorem selectorKey_class (name : String) : selectorKey ["." ++ name] = name := by
  have hjoin : ", ".intercalate ["." ++ name] = "." ++ name := by simp
  have hlist : ("." ++ name).toList = '.' :: name.toList := by simp
  unfold selectorKey
  rw [hjoin]
  dsimp only
  rw [hlist]
  exact String.ofList_toList

section

variable (o : Options)

/-- Declarations of different properties make no fallbacks. -/
theorem foldl_addDeclaration {declarations : List Declaration}
    (h : (declarations.map fun d => propertyKey d.property o.dashes).Nodup) :
    declarations.foldl (addDeclaration o) [] = declarations.map (namedValue o) := by
  have hempty : (Entries.keys ([] : Object) ++
      declarations.map fun d => propertyKey d.property o.dashes).Nodup := h
  refine Entries.foldl_of_nodup (fun style d hnew => ?_) hempty
  rw [addDeclaration_eq_give, namedValue]
  exact give_of_get?_none ((Entries.get?_eq_none_iff style _).2 hnew) _

/-- The rule of a new class adds an object behind all others. -/
theorem addTopRule_of_notMem {styles : Object} {c : String × List Declaration}
    (hnew : c.1 ∉ Entries.keys styles) :
    addTopRule o styles (.style ["." ++ c.1] (c.2.map .declaration)) =
      styles ++ [(c.1, .nested (c.2.foldl (addDeclaration o) []))] := by
  have hdeclarations : declarationsOf (c.2.map .declaration) = c.2 := by
    rw [declarationsOf, List.filterMap_map]
    exact List.filterMap_some
  have hnone := (Entries.get?_eq_none_iff styles c.1).2 hnew
  rw [addTopRule, addStyle, selectorKey_class, hdeclarations, modifyObject,
    Entries.insert_of_notMem hnew, objectAt_of_get?_none hnone]

/-- Rules of different classes have an object each. -/
theorem ofRules_classRules {classes : Entries (List Declaration)}
    (h : AreClasses (fun d => propertyKey d.property o.dashes) classes) :
    ofRules o (classRules classes) =
      classStyles (classes.map fun c => (c.1, c.2.map (namedValue o))) := by
  have hempty : (Entries.keys ([] : Object) ++ classes.map fun c => c.1).Nodup := h.distinct
  have hstep : ∀ (styles : Object) (c : String × List Declaration), c.1 ∉ Entries.keys styles →
      addTopRule o styles (.style ["." ++ c.1] (c.2.map .declaration)) =
        styles ++ [(c.1, .nested (c.2.foldl (addDeclaration o) []))] :=
    fun _ _ => addTopRule_of_notMem o
  rw [ofRules, classRules, List.foldl_map, Entries.foldl_of_nodup hstep hempty, classStyles,
    List.map_map, List.nil_append]
  refine List.map_congr_left fun c hc => ?_
  rw [foldl_addDeclaration o (h.keys c hc)]
  rfl

end

/-! ## Reading what is written -/

/-- An entry of a style object whose line is that of a declaration. -/
structure Writes (e : String × Value) (d : Declaration) : Prop where
  line : declarationLine e.1 e.2 = d.property ++ ":" ++ d.value ++ ";\n"
  leaf : e.2.isContainer = false
  name : IsKebabName d.property
  safe : IsSafe d.value

theorem isPlainName_of_isKebabName {name : String} (h : IsKebabName name) :
    Css.isPlainName name = true := by
  obtain ⟨word, others, hword, hothers, hname⟩ := h
  have hchar : ∀ c, Text.isWordChar c = true → (c.isAlphanum || c == '-' || c == '_') = true :=
    fun c hc => by rw [Text.isAlphanum_of_isWordChar hc, Bool.true_or, Bool.true_or]
  unfold Css.isPlainName
  rw [hname, Bool.and_eq_true]
  refine ⟨?_, List.all_eq_true.2 fun c hc => ?_⟩
  · obtain ⟨c, cs, rfl, hc, -⟩ := Text.exists_cons_of_isWord hword
    simp [Text.isAlpha_of_isLower hc]
  · rcases List.mem_append.1 hc with hc | hc
    · exact hchar c (Text.isWordChar_of_mem hword c hc)
    · obtain ⟨w, hw, hc⟩ := List.mem_flatMap.1 hc
      rcases List.mem_cons.1 hc with rfl | hc
      · rfl
      · exact hchar c (Text.isWordChar_of_mem (hothers w hw) c hc)

section

variable {e : String × Value} {d : Declaration} (h : Writes e d)

include h

theorem Writes.toList_line : (declarationLine e.1 e.2).toList =
    (d.property.toList ++ ':' :: (d.value.toList ++ [';'])) ++ ['\n'] := by
  rw [h.line]
  simp

theorem Writes.reads :
    Reads readDeclarations (d.property.toList ++ ':' :: (d.value.toList ++ [';']))
      [.declaration d] :=
  Css.reads_ofPlainName (isPlainName_of_isKebabName h.name) h.safe.2 h.safe.1

end

section

variable {ε : Type} {entry : ε → String × Value} {declaration : ε → Declaration}

theorem readsInside_declarationLines {es : List ε}
    (h : ∀ e ∈ es, Writes (entry e) (declaration e)) :
    ReadsInside readDeclarations
      (['\n', ' ', ' '] ++ (declarationLines (es.map entry)).toList)
      ((es.map declaration).map .declaration) := by
  have hblanks : ∀ c ∈ ['\n', ' ', ' '], isSpace c = true := List.all_eq_true.1 (by decide)
  have hlines : (declarationLines (es.map entry)).toList = es.flatMap fun e =>
      ((declaration e).property.toList ++ ':' :: ((declaration e).value.toList ++ [';'])) ++
        ['\n'] := by
    rw [declarationLines, String.toList_join, List.map_map, List.flatMap_map]
    exact List.flatMap_congr fun e he => (h e he).toList_line
  rw [hlines, List.map_map]
  exact Css.readsInside_terminated Css.passesOver_readDeclarations (fun e he => (h e he).reads)
    (fun e he => Css.exists_cons_ofPlainName (isPlainName_of_isKebabName (h e he).name) _) hblanks
    (List.cons_ne_nil _ _)

omit entry declaration in
theorem isPlainText_of_isClassName {name : String} (h : isClassName name = true) :
    Css.isPlainText ("." ++ name) = true := by
  obtain ⟨-, hchars⟩ := Bool.and_eq_true_iff.1 h
  have hplain : ∀ c ∈ '.' :: name.toList, Css.isPlainChar c = true := by
    intro c hc
    rcases List.mem_cons.1 hc with rfl | hc
    · decide
    have hclass := List.all_eq_true.1 hchars c hc
    simp only [Bool.or_eq_true, beq_iff_eq] at hclass
    rcases hclass with (halnum | rfl) | rfl
    · rw [Css.isPlainChar, halnum, Bool.true_or]
    · decide
    · decide
  have hlist : ("." ++ name).toList = '.' :: name.toList := by simp
  unfold Css.isPlainText
  rw [hlist, Bool.and_eq_true, Bool.and_eq_true]
  refine ⟨⟨by rw [List.head?_cons]; decide, List.all_eq_true.2 fun c hc => ?_⟩, bne_iff_ne.2 ?_⟩
  · rw [hplain c hc, Bool.true_or]
  · intro hlast
    exact absurd (hplain ' ' (List.mem_of_getLast? hlast)) (by decide)

/-- What is written of a class is a style rule of its own. -/
theorem reads_classBlock {name : String} (hname : isClassName name = true) {es : List ε}
    (h : ∀ e ∈ es, Writes (entry e) (declaration e)) (stop : Location) :
    Reads (readRules stop none) (cssOfEntry name (.nested (es.map entry))).toList
      [.style ["." ++ name] ((es.map declaration).map .declaration)] := by
  have hplain : Css.PlainList ["." ++ name] :=
    ⟨List.cons_ne_nil _ _, List.forall_mem_singleton.2 (isPlainText_of_isClassName hname)⟩
  obtain ⟨x, v, hv, hx, hinert, hselectors⟩ := hplain.exists_piece
  have hleaf : (Value.nested (es.map entry)).isLeaf = true := by
    rw [Value.isLeaf, List.any_map, Bool.not_eq_true', List.any_eq_false]
    exact fun e he => by simp [(h e he).leaf]
  have hread := Css.reads_style hinert (Css.startsPiece_of_isPlainStart hx)
    (by rw [hselectors]; exact hplain.all_eq_empty) (readsInside_declarationLines h) stop
  have hblank : ∀ c ∈ ['\n'], isSpace c = true := List.forall_mem_singleton.2 rfl
  have htext : (cssOfEntry name (.nested (es.map entry))).toList = ['\n'] ++ x :: (v ++
      ('\x7b' :: (['\n', ' ', ' '] ++ (declarationLines (es.map entry)).toList ++ ['\x7d']))) := by
    rw [cssOfEntry, hleaf, if_pos rfl, ← List.cons_append, ← hv]
    simp [classBlock]
  rw [hselectors, List.cons_append] at hread
  rw [htext]
  exact hread.space (Css.passesOver_readRules stop) (Css.isSpace_of_isPlainStart hx) hblank
    (List.cons_ne_nil _ _)

variable (entry declaration) in
/-- What is written of classes is a style sheet of their rules. -/
theorem reads_toCss {classes : Entries (List ε)} (hnames : ∀ c ∈ classes, isClassName c.1 = true)
    (h : ∀ c ∈ classes, ∀ e ∈ c.2, Writes (entry e) (declaration e)) (stop : Location) :
    Reads (readRules stop none)
      (toCss (classStyles (classes.map fun c => (c.1, c.2.map entry)))).toList
      (classRules (classes.map fun c => (c.1, c.2.map declaration))) := by
  induction classes with
  | nil => exact Css.reads_nil
  | cons c classes ih =>
    have hfirst := reads_classBlock (hnames c List.mem_cons_self) (h c List.mem_cons_self) stop
    have hothers := ih (fun d hd => hnames d (List.mem_cons_of_mem _ hd))
      fun d hd => h d (List.mem_cons_of_mem _ hd)
    have hboth := hfirst.append hothers
    rw [← String.toList_append] at hboth
    exact hboth

end

/-! ## Values -/

theorem isSafe_of_isPlainText {text : String} (h : Css.isPlainText text = true) : IsSafe text :=
  ⟨Css.trim_of_isPlainText h,
    Css.inert_of_isPlainOrBlank fun _ hc => Css.isPlainOrBlank_of_mem h hc⟩

theorem IsSafe.doubleBackslashes_eq {text : String} (h : IsSafe text) :
    doubleBackslashes text = text := by
  have hkeep : text.toList.flatMap (fun c => if c == '\\' then ['\\', '\\'] else [c]) =
      text.toList.flatMap fun c => [c] :=
    List.flatMap_congr fun c hc => by simp [h.2.ne_backslash c hc]
  rw [doubleBackslashes, hkeep, List.flatMap_singleton', String.ofList_toList]

/-- Without a unit to take off, a safe text is declared as it is written. -/
theorem IsSafe.declaredValue_eq {d : Declaration} (h : IsSafe d.value) :
    declaredValue {} d = .scalar d.value := by
  have hunit : Options.effectiveUnit {} = none := rfl
  unfold declaredValue
  rw [hunit, withoutUnit]
  dsimp only
  rw [h.doubleBackslashes_eq]

/-- The text of a measure in a style sheet. -/
def measureText : Value → String
  | .scalar text => text
  | .number n => Value.numberText n ++ "px"
  | _ => ""

/-- The declaration that is written of an entry. -/
def declarationOf (e : String × Value) : Declaration :=
  ⟨kebabCase e.1, measureText e.2⟩

theorem isSafe_measured {n : Double} (h : n.isFinite = true) :
    IsSafe (Value.numberText n ++ "px") := by
  obtain ⟨m, htext, -⟩ := exists_numberText h
  have hlist : (Value.numberText n ++ "px").toList = m.text ++ ['p', 'x'] := by
    rw [← htext]
    simp
  have hchars : ∀ c ∈ m.text ++ ['p', 'x'],
      (Number.isNumeralChar c || ['p', 'x'].contains c) = true := by
    intro c hc
    rcases List.mem_append.1 hc with hc | hc
    · rw [m.isNumeralChar_of_mem_text hc, Bool.true_or]
    · rw [List.contains_iff_mem.2 hc, Bool.or_true]
  have hblank : ∀ c ∈ m.text ++ ['p', 'x'], Text.isBlank c = false := by
    intro c hc
    rcases List.mem_append.1 hc with hc | hc
    · exact isBlank_of_isNumeralChar (m.isNumeralChar_of_mem_text hc)
    · exact Css.Token.eq_false_of_mem (by decide) hc
  refine ⟨?_, ?_⟩
  · rw [hlist]
    exact Text.trim_of_solid hblank
  · rw [hlist]
    exact Css.Token.inert_of_forall (by decide) hchars

theorem withoutUnit_measured {n : Double} (h : n.isFinite = true) :
    withoutUnit (Value.numberText n ++ "px") (some "px") = .number n.unsignedZero := by
  have hunit : Number.IsBehind "px".toList :=
    Number.isBehind_cons (by decide) (by decide) (by decide) (by decide) ['x']
  exact withoutUnit_numberText h hunit (by decide) (by decide)

section

variable {v : Value} (h : IsMeasure v)

include h

theorem IsMeasure.isSafe : IsSafe (measureText v) := by
  cases v with
  | scalar text => exact h.1
  | number n =>
    obtain ⟨i, hi, -⟩ := h
    exact isSafe_measured (Double.isFinite_of_toInt? hi)
  | _ => exact h.elim

theorem IsMeasure.writes {key : String} (hkey : IsCamelName key) :
    Writes (key, v) (declarationOf (key, v)) := by
  refine ⟨?_, ?_, (camelCase_kebabCase hkey).1, h.isSafe⟩
  · cases v with
    | scalar text => simp [declarationLine, declarationOf, Value.written?, measureText]
    | number n =>
      simp [declarationLine, declarationOf, Value.written?, measureText, String.append_assoc]
    | _ => exact h.elim
  · cases v with
    | scalar => rfl
    | number => rfl
    | _ => exact h.elim

/-- A measure that is written down and declared again is the same. -/
theorem IsMeasure.declaredValue_equal (property : String) :
    (declaredValue { unit := some "px" } ⟨property, measureText v⟩).Equal v := by
  have hunit : Options.effectiveUnit { unit := some "px" } = some "px" := by decide
  unfold declaredValue
  dsimp only
  rw [hunit]
  cases v with
  | scalar text =>
    rw [measureText, h.2]
    dsimp only
    rw [h.1.doubleBackslashes_eq]
    exact .scalar text
  | number n =>
    obtain ⟨i, hi, -⟩ := h
    have hfinite := Double.isFinite_of_toInt? hi
    rw [measureText, withoutUnit_measured hfinite]
    exact .number (Double.unsignedZero_equal hfinite)
  | _ => exact h.elim

end

/-! ## There and back -/

section

variable {classes : Entries Object} (h : AreClasses Prod.fst classes)
  (hentries : ∀ c ∈ classes, ∀ e ∈ c.2, IsCamelName e.1 ∧ IsMeasure e.2)

include h hentries

/-- The style object of classes comes back from its style sheet. -/
theorem exists_rules_of_classStyles (o : ReadOptions) : ∃ rules : List Rule,
    Stylesheet.parse (toCss (classStyles classes)) o = .ok ⟨rules, []⟩ ∧
      Object.Equal (ofRules { unit := some "px" } rules) (classStyles classes) := by
  have hkey : ∀ c ∈ classes, ∀ e ∈ c.2, propertyKey (declarationOf e).property false = e.1 :=
    fun c hc e he => (camelCase_kebabCase (hentries c hc e he).1).elim fun hkebab hcamel =>
      (propertyKey_of_isKebabName hkebab).trans hcamel
  have hread := reads_toCss id declarationOf h.names
    (fun c hc e he => (hentries c hc e he).2.writes (hentries c hc e he).1) .start
  rw [map_map_id] at hread
  refine ⟨_, Stylesheet.parse_of_reads hread o, ?_⟩
  have hclasses : AreClasses (fun d => propertyKey d.property false)
      (classes.map fun c => (c.1, c.2.map declarationOf)) := by
    refine h.map fun c hc => ?_
    rw [List.map_map]
    exact List.map_congr_left (hkey c hc)
  rw [ofRules_classRules { unit := some "px" } hclasses, classStyles, classStyles, List.map_map,
    List.map_map]
  refine Object.equal_map fun c hc => ⟨rfl, .nested ?_⟩
  have hequal : Object.Equal (c.2.map fun e => namedValue { unit := some "px" } (declarationOf e))
      (c.2.map id) :=
    Object.equal_map fun e he =>
      ⟨hkey c hc e he, (hentries c hc e he).2.declaredValue_equal (kebabCase e.1)⟩
  rw [List.map_id] at hequal
  simpa [Function.comp_def] using hequal

end

section

variable {classes : Entries (List Declaration)} (h : AreClasses Declaration.property classes)
  (hdeclarations : ∀ c ∈ classes, ∀ d ∈ c.2, IsKebabName d.property ∧ IsSafe d.value)

include h hdeclarations

/-- The rules of classes come back from their style object. -/
theorem parse_toCss_ofRules (o : ReadOptions) :
    Stylesheet.parse (toCss (ofRules {} (classRules classes))) o = .ok ⟨classRules classes, []⟩ := by
  have hkebab : ∀ c ∈ classes, ∀ d ∈ c.2, kebabCase (propertyKey d.property false) = d.property := by
    intro c hc d hd
    have hname := (hdeclarations c hc d hd).1
    rw [propertyKey_of_isKebabName hname, (kebabCase_camelCase hname).2]
  have hclasses : AreClasses (fun d => propertyKey d.property false) classes := by
    refine ⟨h.names, h.distinct, fun c hc => List.Nodup.of_map kebabCase ?_⟩
    have hkeys : (c.2.map fun d => propertyKey d.property false).map kebabCase =
        c.2.map Declaration.property := by
      rw [List.map_map]
      exact List.map_congr_left (hkebab c hc)
    rw [hkeys]
    exact h.keys c hc
  have hwrites : ∀ c ∈ classes, ∀ d ∈ c.2, Writes (namedValue {} d) d := by
    intro c hc d hd
    obtain ⟨hname, hsafe⟩ := hdeclarations c hc d hd
    have hnamed : namedValue {} d = (propertyKey d.property false, .scalar d.value) := by
      rw [namedValue, hsafe.declaredValue_eq]
    rw [hnamed]
    exact ⟨by simp [declarationLine, Value.written?, hkebab c hc d hd], rfl, hname, hsafe⟩
  have hread := reads_toCss (namedValue {}) id h.names hwrites .start
  rw [map_map_id] at hread
  rw [ofRules_classRules {} hclasses]
  exact Stylesheet.parse_of_reads hread o

end

/-- **Classes there and back.**  A style object of classes is what the rules of its style sheet make
when pixels are taken off, and the rules of classes are what the style sheet of their style object
says. -/
theorem classes_roundTrip (o : ReadOptions) :
    (∀ classes : Entries Object, AreClasses Prod.fst classes →
      (∀ c ∈ classes, ∀ e ∈ c.2, IsCamelName e.1 ∧ IsMeasure e.2) →
      ∃ rules : List Rule,
        Stylesheet.parse (toCss (classStyles classes)) o = .ok ⟨rules, []⟩ ∧
          Object.Equal (ofRules { unit := some "px" } rules) (classStyles classes)) ∧
    ∀ classes : Entries (List Declaration), AreClasses Declaration.property classes →
      (∀ c ∈ classes, ∀ d ∈ c.2, IsKebabName d.property ∧ IsSafe d.value) →
      Stylesheet.parse (toCss (ofRules {} (classRules classes))) o = .ok ⟨classRules classes, []⟩ :=
  ⟨fun _ h hentries => exists_rules_of_classStyles h hentries o,
    fun _ h hdeclarations => parse_toCss_ofRules h hdeclarations o⟩

/-- A class with a number and a text, and two classes with a text of several parts. -/
theorem classes_roundTrip_of_margins :
    (∃ rules : List Rule,
      Stylesheet.parse (toCss (classStyles [("box",
        [("marginTop", .number (Double.ofInt (-12))), ("color", .scalar "red")])])) {} =
          .ok ⟨rules, []⟩ ∧
        Object.Equal (ofRules { unit := some "px" } rules) (classStyles [("box",
          [("marginTop", .number (Double.ofInt (-12))), ("color", .scalar "red")])])) ∧
    Stylesheet.parse (toCss (ofRules {} (classRules
      [("box", [⟨"margin-top", "1px 2px"⟩]), ("_b-1", [])]))) {} =
        .ok ⟨classRules [("box", [⟨"margin-top", "1px 2px"⟩]), ("_b-1", [])], []⟩ := by
  have hmargin : Text.isWord "margin".toList = true := by decide
  have htop : Text.isWord "top".toList = true := by decide
  have hcapital : Text.isCapitalWord "Top".toList = true := by decide
  have hcolor : Text.isWord "color".toList = true := by decide
  have hred : IsSafe "red" := isSafe_of_isPlainText (by decide)
  have hpair : IsSafe "1px 2px" := isSafe_of_isPlainText (by decide)
  have hscalar : withoutUnit "red" (some "px") = .scalar "red" := by
    unfold withoutUnit
    exact if_pos (by decide)
  have hnumber : (Double.ofInt (-12)).toInt? = some (-12) := by decide +kernel
  refine ⟨(classes_roundTrip {}).1 _ ⟨by decide, by decide, by decide⟩ ?_,
    (classes_roundTrip {}).2 _ ⟨by decide, by decide, by decide⟩ ?_⟩
  · intro c hc e he
    obtain rfl := List.mem_singleton.1 hc
    simp only [List.mem_cons, List.not_mem_nil, or_false] at he
    rcases he with rfl | rfl
    · exact ⟨⟨_, _, hmargin, List.forall_mem_singleton.2 hcapital, by decide⟩, -12, hnumber,
        by decide⟩
    · exact ⟨⟨_, [], hcolor, nofun, by decide⟩, hred, hscalar⟩
  · intro c hc d hd
    simp only [List.mem_cons, List.not_mem_nil, or_false] at hc
    rcases hc with rfl | rfl
    · obtain rfl := List.mem_singleton.1 hd
      exact ⟨⟨_, _, hmargin, List.forall_mem_singleton.2 htop, by decide⟩, hpair⟩
    · cases hd

end Style

end Restyle
