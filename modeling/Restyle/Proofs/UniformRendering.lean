import Restyle.Convert
import Restyle.Proofs.JsonReadBack

/-!
# One rule for the style sheets of style objects

`toCss` has two ways to write the body of a block: a flat one for bodies without further blocks, which
leaves every object and list out, and a recursive one for all others.  `render` has one way only: an
entry with members is a block of them, any other entry a declaration.  The two agree on every object
(`toCss_eq_render`), so the flat way loses nothing where it is taken.

`render` sees a value through its members alone, where a list is no more than an object with the
indices as keys.  Putting that object in the place of a list, at any depth, changes no text
(`Reindexed.sameText`).
-/

namespace Restyle.Style

namespace Value

/-! ## How many entries there are in a value -/

mutual

def weight : Value → Nat
  | .nested entries => entriesWeight entries + 1
  | .fallbacks objects => objectsWeight objects + 1
  | .list items => itemsWeight items + 1
  | _ => 1

def entriesWeight : List (String × Value) → Nat
  | [] => 0
  | (_, v) :: rest => weight v + entriesWeight rest

def objectsWeight : List (List (String × Value)) → Nat
  | [] => 0
  | entries :: rest => entriesWeight entries + 1 + objectsWeight rest

def itemsWeight : List Value → Nat
  | [] => 0
  | v :: rest => weight v + itemsWeight rest

end

theorem weight_pos (v : Value) : 0 < v.weight := by
  cases v <;> simp [weight]

theorem entriesWeight_indexed_id (i : Nat) (items : List Value) :
    entriesWeight (Entries.indexed id i items) = itemsWeight items := by
  induction items generalizing i with
  | nil => rfl
  | cons v vs ih => rw [Entries.indexed, entriesWeight, itemsWeight, ih, id]

theorem entriesWeight_indexed_nested (i : Nat) (objects : List (List (String × Value))) :
    entriesWeight (Entries.indexed nested i objects) = objectsWeight objects := by
  induction objects generalizing i with
  | nil => rfl
  | cons entries rest ih => rw [Entries.indexed, entriesWeight, objectsWeight, ih, weight]

/-- The members of a value are less than the value. -/
theorem entriesWeight_lt_of_members? {v : Value} {children : Object}
    (h : v.members? = some children) : entriesWeight children < v.weight := by
  cases v with
  | nested entries =>
    obtain rfl := Option.some.inj h
    exact Nat.lt_succ_self _
  | fallbacks objects =>
    obtain rfl := Option.some.inj h
    rw [entriesWeight_indexed_nested, weight]
    exact Nat.lt_succ_self _
  | list items =>
    obtain rfl := Option.some.inj h
    rw [entriesWeight_indexed_id, weight]
    exact Nat.lt_succ_self _
  | _ => cases h

/-- The text of a value behind its key, where numbers have the unit `px`. -/
def lineText (v : Value) : String :=
  v.written?.getD "" ++ if v.number?.isSome then "px" else ""

end Value

/-! ## Rendering by members -/

/-- Entry by entry: a block of the members of a value that has members, a declaration of any other. -/
def render : Object → String
  | [] => ""
  | (key, value) :: rest =>
    (match _hmembers : value.members? with
      | some children => "\n." ++ key ++ " \x7b\n  " ++ render children ++ "\x7d"
      | none => kebabCase key ++ ":" ++ value.lineText ++ ";\n") ++ render rest
termination_by entries => Value.entriesWeight entries
decreasing_by
  · have := Value.entriesWeight_lt_of_members? _hmembers
    simp only [Value.entriesWeight]
    omega
  · have := value.weight_pos
    simp only [Value.entriesWeight]
    omega

/-- What is rendered of one entry. -/
def renderEntry (key : String) (value : Value) : String :=
  render [(key, value)]

theorem render_nil : render [] = "" := by
  rw [render]

theorem render_cons (key : String) (value : Value) (rest : Object) :
    render ((key, value) :: rest) = renderEntry key value ++ render rest := by
  rw [renderEntry, render, render, render_nil, String.append_empty]

theorem render_append (front back : Object) :
    render (front ++ back) = render front ++ render back := by
  induction front with
  | nil => rw [render_nil, List.nil_append, String.empty_append]
  | cons e front ih =>
    obtain ⟨key, value⟩ := e
    rw [List.cons_append, render_cons, ih, render_cons, String.append_assoc]

theorem renderEntry_block {value : Value} {children : Object} (h : value.members? = some children)
    (key : String) : renderEntry key value = classBlock key (render children) := by
  rw [renderEntry, render, render_nil, String.append_empty]
  split
  · next found hfound =>
    obtain rfl := Option.some.inj (hfound.symm.trans h)
    rfl
  · next hnone => cases hnone.symm.trans h

theorem renderEntry_line {value : Value} (h : value.members? = none) (key : String) :
    renderEntry key value = kebabCase key ++ ":" ++ value.lineText ++ ";\n" := by
  rw [renderEntry, render, render_nil, String.append_empty]
  split
  · next found hfound => cases hfound.symm.trans h
  · rfl

/-! ## The two ways agree -/

theorem Value.members?_eq_none {v : Value} (h : v.isContainer = false) : v.members? = none := by
  cases v <;> first | rfl | cases h

theorem Value.isSome_written? {v : Value} (h : v.isContainer = false) : v.written?.isSome = true := by
  cases v <;> first | rfl | cases h

theorem declarationLine_eq_renderEntry {value : Value} (h : value.isContainer = false)
    (key : String) : declarationLine key value = renderEntry key value := by
  rw [renderEntry_line (Value.members?_eq_none h)]
  cases value with
  | nested _ | fallbacks _ | list _ => cases h
  | _ => simp [declarationLine, Value.written?, Value.lineText, Value.number?, String.append_assoc]

/-- The flat way, where nothing has to be left out. -/
theorem declarationLines_eq_render {entries : Object} (h : ∀ e ∈ entries, e.2.isContainer = false) :
    declarationLines entries = render entries := by
  induction entries with
  | nil => rw [render_nil]; rfl
  | cons e rest ih =>
    obtain ⟨hhead, hrest⟩ := List.forall_mem_cons.1 h
    have hjoin : declarationLines (e :: rest) = declarationLine e.1 e.2 ++ declarationLines rest := by
      rw [declarationLines, List.map_cons, String.join_cons]
      rfl
    rw [hjoin, declarationLine_eq_renderEntry hhead, ih hrest, render_cons]

theorem not_isContainer_indexed_id {items : List Value}
    (h : ∀ v ∈ items, v.isContainer = false) (i : Nat) :
    ∀ e ∈ Entries.indexed id i items, e.2.isContainer = false := by
  induction items generalizing i with
  | nil => exact nofun
  | cons v vs ih =>
    obtain ⟨hhead, hrest⟩ := List.forall_mem_cons.1 h
    exact List.forall_mem_cons.2 ⟨hhead, ih hrest (i + 1)⟩

/-- The members of a leaf are no objects and no lists. -/
theorem Value.not_isContainer_of_isLeaf {v : Value} {children : Object}
    (hmembers : v.members? = some children) (hleaf : v.isLeaf = true) :
    ∀ e ∈ children, e.2.isContainer = false := by
  cases v with
  | nested entries =>
    obtain rfl := Option.some.inj hmembers
    simpa [isLeaf] using hleaf
  | fallbacks objects =>
    obtain rfl : objects = [] := List.isEmpty_iff.1 hleaf
    obtain rfl := Option.some.inj hmembers
    exact nofun
  | list items =>
    obtain rfl := Option.some.inj hmembers
    exact not_isContainer_indexed_id (by simpa [isLeaf] using hleaf) 0
  | _ => cases hmembers

/-- Whichever way the body of a block is written, it is rendered from its members. -/
theorem body_eq_render {v : Value} {children : Object} {deep : String}
    (hmembers : v.members? = some children) (hdeep : deep = render children) :
    (if v.isLeaf then declarationLines children else deep) = render children := by
  split
  · next hleaf => exact declarationLines_eq_render (v.not_isContainer_of_isLeaf hmembers hleaf)
  · exact hdeep

mutual

theorem cssOfEntries_eq_render : ∀ entries, cssOfEntries entries = render entries
  | [] => by rw [cssOfEntries, render_nil]
  | (key, value) :: rest => by
    rw [cssOfEntries, cssOfEntry_eq_renderEntry key value, cssOfEntries_eq_render rest, render_cons]

theorem cssOfEntry_eq_renderEntry (key : String) : ∀ value, cssOfEntry key value = renderEntry key value
  | .nested entries => by
    rw [cssOfEntry, renderEntry_block rfl,
      body_eq_render rfl (cssOfEntries_eq_render entries)]
  | .fallbacks objects => by
    have hbody : (if objects.isEmpty then "" else cssOfObjects 0 objects) =
        render (Entries.indexed .nested 0 objects) := by
      rw [← cssOfObjects_eq_render 0 objects]
      cases objects <;> rfl
    rw [cssOfEntry, renderEntry_block rfl, hbody]
  | .list items => by
    rw [cssOfEntry, renderEntry_block rfl, body_eq_render rfl (cssOfItems_eq_render 0 items)]
  | .scalar _ => by rw [cssOfEntry, declarationLine_eq_renderEntry rfl]
  | .number _ => by rw [cssOfEntry, declarationLine_eq_renderEntry rfl]
  | .boolean _ => by rw [cssOfEntry, declarationLine_eq_renderEntry rfl]
  | .null => by rw [cssOfEntry, declarationLine_eq_renderEntry rfl]

theorem cssOfObjects_eq_render (i : Nat) :
    ∀ objects, cssOfObjects i objects = render (Entries.indexed .nested i objects)
  | [] => by rw [cssOfObjects, Entries.indexed, render_nil]
  | entries :: rest => by
    rw [cssOfObjects, body_eq_render rfl (cssOfEntries_eq_render entries),
      cssOfObjects_eq_render (i + 1) rest, Entries.indexed, render_cons, renderEntry_block rfl]

theorem cssOfItems_eq_render (i : Nat) :
    ∀ items, cssOfItems i items = render (Entries.indexed id i items)
  | [] => by rw [cssOfItems, Entries.indexed, render_nil]
  | item :: rest => by
    rw [cssOfItems, cssOfEntry_eq_renderEntry (toString i) item, cssOfItems_eq_render (i + 1) rest,
      Entries.indexed, render_cons, id]

end

theorem toCss_eq_render (styles : Object) : toCss styles = render styles :=
  cssOfEntries_eq_render styles

/-! ## Lists as objects -/

/-- The second value is the first with any number of its lists, at any depth, replaced by objects that
have the items under their indices. -/
inductive Reindexed : Value → Value → Prop
  | refl (v : Value) : Reindexed v v
  | trans {u v w : Value} (huv : Reindexed u v) (hvw : Reindexed v w) : Reindexed u w
  | list (items : List Value) : Reindexed (.list items) (.nested (Entries.indexed id 0 items))
  | fallbacks (objects : List (List (String × Value))) :
    Reindexed (.fallbacks objects) (.nested (Entries.indexed .nested 0 objects))
  | entry (front : Object) (key : String) (back : Object) {v w : Value} (h : Reindexed v w) :
    Reindexed (.nested (front ++ (key, v) :: back)) (.nested (front ++ (key, w) :: back))
  | item (front back : List Value) {v w : Value} (h : Reindexed v w) :
    Reindexed (.list (front ++ v :: back)) (.list (front ++ w :: back))
  | object (front back : List (List (String × Value))) {es fs : Object}
    (h : Reindexed (.nested es) (.nested fs)) :
    Reindexed (.fallbacks (front ++ es :: back)) (.fallbacks (front ++ fs :: back))

/-- Two values are rendered alike: as whole objects, and under any key. -/
structure SameText (v w : Value) : Prop where
  members : v.members?.map render = w.members?.map render
  entry : ∀ key, renderEntry key v = renderEntry key w

theorem SameText.of_members {v w : Value} {children replaced : Object}
    (hv : v.members? = some children) (hw : w.members? = some replaced)
    (h : render children = render replaced) : SameText v w where
  members := by rw [hv, hw, Option.map_some, Option.map_some, h]
  entry key := by rw [renderEntry_block hv, renderEntry_block hw, h]

/-- An entry can be exchanged for one that is rendered alike. -/
theorem render_exchange {key : String} {v w : Value} (h : renderEntry key v = renderEntry key w)
    (front back : Object) :
    render (front ++ (key, v) :: back) = render (front ++ (key, w) :: back) := by
  rw [render_append, render_append, render_cons, render_cons, h]

theorem indexed_append {β : Type} (f : β → Value) (i : Nat) (front : List β) (b : β)
    (back : List β) :
    Entries.indexed f i (front ++ b :: back) = Entries.indexed f i front ++
      (toString (i + front.length), f b) :: Entries.indexed f (i + front.length + 1) back := by
  induction front generalizing i with
  | nil => rfl
  | cons a front ih =>
    have hindex : i + 1 + front.length = i + (a :: front).length := by
      rw [List.length_cons]
      omega
    rw [List.cons_append, Entries.indexed, ih (i + 1), hindex, Entries.indexed, List.cons_append]

theorem Reindexed.sameText {v w : Value} (h : Reindexed v w) : SameText v w := by
  induction h with
  | refl v => exact ⟨rfl, fun _ => rfl⟩
  | trans _ _ huv hvw =>
    exact ⟨huv.members.trans hvw.members, fun key => (huv.entry key).trans (hvw.entry key)⟩
  | list items => exact .of_members rfl rfl rfl
  | fallbacks objects => exact .of_members rfl rfl rfl
  | entry front key back _ ih => exact .of_members rfl rfl (render_exchange (ih.entry key) front back)
  | item front back _ ih =>
    refine .of_members rfl rfl ?_
    rw [indexed_append, indexed_append]
    exact render_exchange (ih.entry _) _ _
  | object front back _ ih =>
    refine .of_members rfl rfl ?_
    rw [indexed_append, indexed_append]
    exact render_exchange (ih.entry _) _ _

/-- A JSON text is rendered by the members of its value, be it an object or an array. -/
theorem cssOfJson_of_parse {text : String} {v : Value} (h : Value.parse text = .ok v) :
    Convert.cssOfJson text = match v.members?.map render with
      | some css => .ok css
      | none => .error ⟨.notAnObject, none⟩ := by
  unfold Convert.cssOfJson Object.parseAny
  rw [h]
  cases hmembers : v.members? with
  | none => simp [bind, Except.bind, hmembers, Except.map, throw, throwThe, MonadExceptOf.throw]
  | some children =>
    simp [bind, Except.bind, hmembers, Except.map, toCss_eq_render, pure, Except.pure]

/-- **Style sheets of style objects follow one rule.**  Every entry with members is a block of them,
every other entry a declaration.  Where the flat way is taken it agrees with the recursive one and leaves
no entry out, and with index-keyed objects in the place of lists, anywhere in an object or in a JSON
text, the style sheet is the same. -/
theorem toCss_uniform :
    (∀ styles : Object, toCss styles = render styles) ∧
    (∀ (v : Value) (children : Object), v.members? = some children → v.isLeaf = true →
      declarationLines children = toCss children ∧ ∀ e ∈ children, e.2.written?.isSome = true) ∧
    (∀ v w : Value, Reindexed v w → v.members?.map toCss = w.members?.map toCss) ∧
    (∀ (text other : String) (v w : Value), Value.parse text = .ok v → Value.parse other = .ok w →
      Reindexed v w → Convert.cssOfJson text = Convert.cssOfJson other) := by
  have hrender : toCss = render := funext toCss_eq_render
  refine ⟨toCss_eq_render, fun v children hmembers hleaf => ?_, fun v w h => ?_,
    fun text other v w hv hw h => ?_⟩
  · have hflat := v.not_isContainer_of_isLeaf hmembers hleaf
    refine ⟨by rw [declarationLines_eq_render hflat, toCss_eq_render], fun e he => ?_⟩
    exact Value.isSome_written? (hflat e he)
  · rw [hrender]
    exact h.sameText.members
  · rw [cssOfJson_of_parse hv, cssOfJson_of_parse hw, h.sameText.members]

/-- An array in an array, and the object with the indices of both as keys. -/
theorem toCss_uniform_array :
    declarationLines (Entries.indexed id 0 [.null, .scalar "a"]) =
        toCss (Entries.indexed id 0 [.null, .scalar "a"]) ∧
    Convert.cssOfJson "[true,[null,\"a\"]]" =
      Convert.cssOfJson "\x7b\"0\":true,\"1\":\x7b\"0\":null,\"1\":\"a\"\x7d\x7d" := by
  have harray : Value.parse "[true,[null,\"a\"]]" =
      .ok (.list [.boolean true, .list [.null, .scalar "a"]]) := by cbv
  have hobject : Value.parse "\x7b\"0\":true,\"1\":\x7b\"0\":null,\"1\":\"a\"\x7d\x7d" =
      .ok (.nested [("0", .boolean true), ("1", .nested [("0", .null), ("1", .scalar "a")])]) := by
    have hinner : (Json.object [("0", .null), ("1", .string "a")]).Within 126 :=
      .object (List.forall_mem_cons.2 ⟨.null, List.forall_mem_singleton.2 (.string "a")⟩)
    have houter : (Json.object [("0", .boolean true), ("1", _)]).Within 127 :=
      .object (List.forall_mem_cons.2 ⟨.boolean true, List.forall_mem_singleton.2 hinner⟩)
    exact congrArg (Except.map Value.ofJson) (Json.parse_compact houter)
  have hlists : Reindexed (.list [.boolean true, .list [.null, .scalar "a"]]) _ :=
    .trans (.item [.boolean true] [] (.list [.null, .scalar "a"])) (.list _)
  obtain ⟨-, hflat, -, hjson⟩ := toCss_uniform
  exact ⟨(hflat (.list [.null, .scalar "a"]) _ rfl rfl).1, hjson _ _ _ _ harray hobject hlists⟩

end Restyle.Style
