import ModbusServer.Foundation.Allocation
import ModbusServer.Json.Parser

/-!
# The memory of the parser

The parser of cJSON with the blocks it allocates: one for each item, and one for each string and
each name. A call of `malloc` may be refused at any point, and then the parser frees what it has
allocated and fails, as it does on a text that is no value. Both ways out of the source are kept: a
list is handed over as soon as it is complete, and deleted with its last, incomplete item otherwise.

An item that is not complete has the type zero, except that `parse_object` leaves the type of a
string in an item whose name it has read; it is not looked at before a value has been read as well.

Source: `cJSON_New_Item` and `cJSON_Delete`, `cJSON/cJSON.c`, lines 240–274; `parse_string`,
lines 772–899; `cJSON_ParseWithLengthOpts`, lines 1094–1172; `parse_value`, `parse_array` and
`parse_object`, lines 1311–1364, 1440–1536 and 1600–1711.

## Main definitions

* `ModbusServer.Item`: an item with its blocks, `ModbusServer.Item.value` the value it stands for.
* `ModbusServer.Item.delete`: `cJSON_Delete`.
* `ModbusServer.parseValueIn`, `ModbusServer.cJSONParseIn`: the parser.

## Main results

* `ModbusServer.Item.delete_eq`: what is deleted.
* `ModbusServer.parsed_cJSONParseIn`: what the parser leaves behind.
* `ModbusServer.cJSONParseIn_delete`: parsing and deleting again, for all answers of `malloc`.
-/

namespace ModbusServer

open Allocation CText

/-! ### Items -/

/-- A C string in a block of its own. -/
structure Text where
  block : ℕ
  bytes : Bytes

/-- A `cJSON` in its block, with its name if it has one. -/
inductive Item
  | invalid (block : ℕ) (name : Option Text)
  | null (block : ℕ) (name : Option Text)
  | bool (block : ℕ) (name : Option Text) (b : Bool)
  | number (block : ℕ) (name : Option Text) (valuedouble : Double)
  | string (block : ℕ) (name : Option Text) (valuestring : Text)
  | array (block : ℕ) (name : Option Text) (child : List Item)
  | object (block : ℕ) (name : Option Text) (child : List Item)

/-- The field `string`. -/
def Item.name : Item → Option Text
  | invalid _ name | null _ name | bool _ name _ | number _ name _ | string _ name _
  | array _ name _ | object _ name _ => name

mutual

/-- The value of a complete item. -/
def Item.value : Item → CJson
  | .invalid _ _ | .null _ _ => .null
  | .bool _ _ b => .bool b
  | .number _ _ d => .number d
  | .string _ _ s => .string s.bytes
  | .array _ _ child => .array (itemValues child)
  | .object _ _ child => .object (itemMembers child)

/-- The values of a list of items. -/
def itemValues : List Item → List CJson
  | [] => []
  | item :: items => item.value :: itemValues items

/-- The names and values of a list of items. -/
def itemMembers : List Item → List (Bytes × CJson)
  | [] => []
  | item :: items => (item.name.elim [] Text.bytes, item.value) :: itemMembers items

end

/-- The block of a string that may be a null pointer. -/
def textBlocks (name : Option Text) : List ℕ := name.toList.map Text.block

mutual

/-- The blocks of an item, in the order in which they are freed. -/
def Item.blocks : Item → List ℕ
  | .invalid block name | .null block name | .bool block name _ | .number block name _ =>
    textBlocks name ++ [block]
  | .string block name valuestring => valuestring.block :: (textBlocks name ++ [block])
  | .array block name child | .object block name child =>
    itemsBlocks child ++ (textBlocks name ++ [block])

/-- The blocks of a list of items. -/
def itemsBlocks : List Item → List ℕ
  | [] => []
  | item :: items => item.blocks ++ itemsBlocks items

end

/-- A string is freed, unless it is a null pointer. -/
def freeText (name : Option Text) (h : Heap) : Heap :=
  match name with
  | some text => h.free text.block
  | none => h

mutual

/-- `cJSON_Delete` on an item without successor. -/
def Item.delete : Item → Heap → Heap
  | .invalid block name, h | .null block name, h | .bool block name _, h
  | .number block name _, h => (freeText name h).free block
  | .string block name valuestring, h => (freeText name (h.free valuestring.block)).free block
  | .array block name child, h | .object block name child, h =>
    (freeText name (deleteItems child h)).free block

/-- `cJSON_Delete` on the head of a list. -/
def deleteItems : List Item → Heap → Heap
  | [], h => h
  | item :: items, h => deleteItems items (item.delete h)

end

/-! ### The parser -/

/-- `parse_string`, which fails without a block if `malloc` is refused or the literal has no end,
and frees its block if an escape is not valid. -/
def parseStringIn (grants : ℕ → Bool) (s : Bytes) (h : Heap) : Option (Text × Bytes) × Heap :=
  match s with
  | [] => (none, h)
  | c :: t =>
    if c ≠ 34 then (none, h)
    else
      match scanString t with
      | none => (none, h)
      | some (body, rest) =>
        match h.malloc grants with
        | (none, h) => (none, h)
        | (some output, h) =>
          match unescape body.length body with
          | some bytes => (some (⟨output, cString bytes⟩, rest), h)
          | none => (none, h.free output)

/-- `parse_array` and `parse_object` from behind the opening bracket; what the loop has allocated is
deleted if it fails. -/
def enterListIn (close : UInt8) (complete : List Item → Item)
    (loop : Bytes → Heap → (List Item × Option Bytes) × Heap) (depth : ℕ) (s : Bytes) (h : Heap) :
    Option (Item × Bytes) × Heap :=
  if nestingLimit ≤ depth then (none, h)
  else
    let t := skipWhitespace s
    if t.head? = some close then (some (complete [], t.tail), h)
    else
      match loop t h with
      | ((child, some rest), h) => (some (complete child, rest), h)
      | ((child, none), h) => (none, deleteItems child h)

mutual

/-- `parse_value` on an item with its block and its name, which stays as it is if it fails. -/
def parseValueIn (grants : ℕ → Bool) :
    ℕ → ℕ → ℕ → Option Text → Bytes → Heap → Option (Item × Bytes) × Heap
  | 0, _, _, _, _, h => (none, h)
  | fuel + 1, depth, block, name, s, h =>
    if (ascii "null").isPrefixOf s then (some (.null block name, s.drop 4), h)
    else if (ascii "false").isPrefixOf s then (some (.bool block name false, s.drop 5), h)
    else if (ascii "true").isPrefixOf s then (some (.bool block name true, s.drop 4), h)
    else
      match s with
      | [] => (none, h)
      | c :: t =>
        if c = 34 then
          match parseStringIn grants s h with
          | (some (text, rest), h) => (some (.string block name text, rest), h)
          | (none, h) => (none, h)
        else if c = 45 ∨ isDigit c then
          ((parseNumber s).map (Prod.map (.number block name) id), h)
        else if c = 91 then
          enterListIn 93 (.array block name) (parseElementsIn grants fuel (depth + 1)) depth t h
        else if c = 123 then
          enterListIn 125 (.object block name) (parseMembersIn grants fuel (depth + 1)) depth t h
        else (none, h)

/-- The loop of `parse_array`: the items it has allocated, and the text behind the closing bracket
if it does not fail. -/
def parseElementsIn (grants : ℕ → Bool) :
    ℕ → ℕ → Bytes → Heap → (List Item × Option Bytes) × Heap
  | 0, _, _, h => (([], none), h)
  | fuel + 1, depth, s, h =>
    match h.malloc grants with
    | (none, h) => (([], none), h)
    | (some new_item, h) =>
      match parseValueIn grants fuel depth new_item none s h with
      | (none, h) => (([.invalid new_item none], none), h)
      | (some (item, t), h) =>
        match skipWhitespace t with
        | [] => (([item], none), h)
        | c :: t' =>
          if c = 44 then
            let ((items, r), h) := parseElementsIn grants fuel depth (skipWhitespace t') h
            ((item :: items, r), h)
          else if c = 93 then (([item], some t'), h)
          else (([item], none), h)

/-- The loop of `parse_object`. -/
def parseMembersIn (grants : ℕ → Bool) :
    ℕ → ℕ → Bytes → Heap → (List Item × Option Bytes) × Heap
  | 0, _, _, h => (([], none), h)
  | fuel + 1, depth, s, h =>
    match h.malloc grants with
    | (none, h) => (([], none), h)
    | (some new_item, h) =>
      match parseStringIn grants s h with
      | (none, h) => (([.invalid new_item none], none), h)
      | (some (name, t), h) =>
        match skipWhitespace t with
        | [] => (([.invalid new_item (some name)], none), h)
        | c :: t' =>
          if c ≠ 58 then (([.invalid new_item (some name)], none), h)
          else
            match parseValueIn grants fuel depth new_item (some name) (skipWhitespace t') h with
            | (none, h) => (([.invalid new_item (some name)], none), h)
            | (some (item, u), h) =>
              match skipWhitespace u with
              | [] => (([item], none), h)
              | c :: u' =>
                if c = 44 then
                  let ((items, r), h) := parseMembersIn grants fuel depth (skipWhitespace u') h
                  ((item :: items, r), h)
                else if c = 125 then (([item], some u'), h)
                else (([item], none), h)

end

/-- `cJSON_Parse`. -/
def cJSONParseIn (grants : ℕ → Bool) (value : Bytes) (h : Heap) : Option Item × Heap :=
  let s := skipWhitespace (skipUtf8Bom (cString value))
  match h.malloc grants with
  | (none, h) => (none, h)
  | (some block, h) =>
    match parseValueIn grants (2 * s.length + 1) 0 block none s h with
    | (some (item, _), h) => (some item, h)
    | (none, h) => (none, (Item.invalid block none).delete h)

/-! ### Deleting -/

theorem freeText_eq (name : Option Text) (h : Heap) :
    freeText name h = h.freeAll (textBlocks name) := by
  cases name <;> rfl

mutual

/-- **What is deleted** are the blocks of the item. -/
theorem Item.delete_eq (item : Item) (h : Heap) : item.delete h = h.freeAll item.blocks := by
  cases item with
  | array block name child | object block name child =>
    rw [Item.delete, Item.blocks, Heap.freeAll_append, Heap.freeAll_append, deleteItems_eq child h,
      freeText_eq]
    rfl
  | _ =>
    simp only [Item.delete, Item.blocks, freeText_eq, Heap.freeAll_append, Heap.freeAll_cons]
    rfl

theorem deleteItems_eq (items : List Item) (h : Heap) :
    deleteItems items h = h.freeAll (itemsBlocks items) := by
  cases items with
  | nil => rfl
  | cons item items =>
    rw [deleteItems, itemsBlocks, Heap.freeAll_append, Item.delete_eq item h, deleteItems_eq items]

end

/-! ### What the parser leaves behind -/

section Parser

variable {grants : ℕ → Bool} {h h' : Heap}

/-- `parse_string` on a text: it returns the string in a new block, or leaves nothing behind, and
fails on a text with a string in front only if a block is refused. -/
structure TextRead (grants : ℕ → Bool) (h : Heap) (r : Option (Text × Bytes) × Heap)
    (expected : Option (Bytes × Bytes)) : Prop where
  success : ∀ text rest, r.1 = some (text, rest) →
    expected = some (text.bytes, rest) ∧ Granted grants h r.2 ∧ Grows h r.2 [text.block]
  failure : r.1 = none → Grows h r.2 [] ∧ (Granted grants h r.2 → expected = none)

/-- `parse_value` on an item: it completes the item with new blocks, or leaves nothing behind, and
fails on a text with a value in front only if a block is refused. -/
structure ItemRead (grants : ℕ → Bool) (h : Heap) (block : ℕ) (name : Option Text)
    (r : Option (Item × Bytes) × Heap) (expected : Option (CJson × Bytes)) : Prop where
  success : ∀ item rest, r.1 = some (item, rest) →
    expected = some (item.value, rest) ∧ Granted grants h r.2 ∧ item.name = name ∧
      ∃ bs, item.blocks = bs ++ (textBlocks name ++ [block]) ∧ Grows h r.2 bs
  failure : r.1 = none → Grows h r.2 [] ∧ (Granted grants h r.2 → expected = none)

/-- The loop of `parse_array` or `parse_object`: it leaves behind what it returns, and fails in
front of the rest of a list only if a block is refused. -/
structure ItemsRead {α : Type} (grants : ℕ → Bool) (h : Heap) (read : List Item → List α)
    (r : (List Item × Option Bytes) × Heap) (expected : Option (List α × Bytes)) : Prop where
  grows : Grows h r.2 (itemsBlocks r.1.1)
  success : ∀ rest, r.1.2 = some rest →
    expected = some (read r.1.1, rest) ∧ Granted grants h r.2
  failure : r.1.2 = none → Granted grants h r.2 → expected = none

theorem textRead_parseStringIn (grants : ℕ → Bool) (s : Bytes) (hh : h.Named) :
    TextRead grants h (parseStringIn grants s h) (parseString s) := by
  have hfail : Grows h h [] := .refl h
  rw [parseStringIn.eq_def, parseString.eq_def]
  cases s with
  | nil => exact ⟨by simp, fun _ => ⟨hfail, fun _ => rfl⟩⟩
  | cons c t =>
    dsimp only
    split_ifs with hquote
    · exact ⟨by simp, fun _ => ⟨hfail, fun _ => rfl⟩⟩
    cases hscan : scanString t with
    | none => exact ⟨by simp, fun _ => ⟨hfail, fun _ => rfl⟩⟩
    | some scanned =>
      obtain ⟨body, rest⟩ := scanned
      dsimp only [Option.bind_some]
      rcases hm : h.malloc grants with ⟨_ | output, h'⟩
      · obtain ⟨hgrows, hrefused⟩ := grows_malloc_none hm
        exact ⟨by simp, fun _ => ⟨hgrows, fun hg => absurd hg hrefused⟩⟩
      · obtain ⟨hgrows, hgranted⟩ := grows_malloc hm
        dsimp only
        cases unescape body.length body with
        | none => exact ⟨by simp, fun _ => ⟨hgrows.free hh, fun _ => rfl⟩⟩
        | some bytes =>
          refine ⟨?_, by simp⟩
          rintro _ _ ⟨⟩
          exact ⟨rfl, hgranted, hgrows⟩

/-- A value without blocks of its own. -/
theorem ItemRead.pure {block : ℕ} {name : Option Text} {item : Item} {rest : Bytes}
    (hname : item.name = name) (hblocks : item.blocks = textBlocks name ++ [block]) :
    ItemRead grants h block name (some (item, rest), h) (some (item.value, rest)) where
  success := by
    rintro _ _ ⟨⟩
    exact ⟨rfl, .refl grants h, hname, [], hblocks, .refl h⟩
  failure := by simp

theorem ItemRead.none {block : ℕ} {name : Option Text} :
    ItemRead grants h block name (none, h) none :=
  ⟨by simp, fun _ => ⟨.refl h, fun _ => rfl⟩⟩

/-- A list is parsed by its loop, and deleted if the loop fails. -/
theorem itemRead_enterListIn {α : Type} {close : UInt8} {complete : List Item → Item}
    {read : List Item → List α} {make : List α → CJson}
    {loop : Bytes → Heap → (List Item × Option Bytes) × Heap}
    {loop' : Bytes → Option (List α × Bytes)} {block : ℕ} {name : Option Text} (depth : ℕ)
    (s : Bytes) (hh : h.Named) (hread : read [] = [])
    (hvalue : ∀ child, (complete child).value = make (read child))
    (hname : ∀ child, (complete child).name = name)
    (hblocks : ∀ child, (complete child).blocks =
      itemsBlocks child ++ (textBlocks name ++ [block]))
    (hempty : loop' [] = none)
    (hloop : ∀ s, ItemsRead grants h read (loop s h) (loop' s)) :
    ItemRead grants h block name (enterListIn close complete loop depth s h)
      ((enterList close loop' depth s).map (Prod.map make id)) := by
  have hentered (t : Bytes) : ItemRead grants h block name
      (match loop t h with
        | ((child, some rest), h) => (some (complete child, rest), h)
        | ((child, none), h) => (none, deleteItems child h))
      ((loop' t).map (Prod.map make id)) := by
    have hitems := hloop t
    generalize loop t h = r at hitems ⊢
    obtain ⟨⟨child, _ | rest⟩, h'⟩ := r
    · refine ⟨by simp, fun _ => ⟨?_, fun hg => ?_⟩⟩
      · have hgrows := hitems.grows
        rw [← List.append_nil (itemsBlocks _)] at hgrows
        dsimp only
        rw [deleteItems_eq]
        exact hgrows.freeAll hh
      · dsimp only at hg
        rw [deleteItems_eq, granted_freeAll] at hg
        rw [hitems.failure rfl hg]
        rfl
    · obtain ⟨hexpected, hgranted⟩ := hitems.success rest rfl
      refine ⟨?_, by simp⟩
      rintro _ _ ⟨⟩
      refine ⟨?_, hgranted, hname child, itemsBlocks child, hblocks child, hitems.grows⟩
      rw [hexpected, hvalue]
      rfl
  rw [enterListIn, enterList]
  by_cases hdepth : nestingLimit ≤ depth
  · rw [if_pos hdepth, if_pos hdepth]
    exact .none
  rw [if_neg hdepth, if_neg hdepth]
  cases hw : skipWhitespace s with
  | nil =>
    have hend := hentered []
    rw [hempty] at hend
    exact hend
  | cons c t =>
    by_cases hc : c = close
    · subst hc
      have hvalue' := hvalue []
      rw [hread] at hvalue'
      simp only [List.head?_cons, if_true, List.tail_cons, Option.map_some, Prod.map, id,
        ← hvalue']
      exact .pure (hname []) (hblocks [])
    · simp only [List.head?_cons, Option.some.injEq, hc, if_false]
      exact hentered (c :: t)

section Items

variable {α : Type} {read : List Item → List α} {item : Item} {x : α}
  {expected : Option (List α × Bytes)}

/-- The loop stops at an item. -/
theorem ItemsRead.failed (hgrows : Grows h h' item.blocks)
    (hexpected : Granted grants h h' → expected = none) :
    ItemsRead grants h read (([item], none), h') expected :=
  ⟨by simpa [itemsBlocks] using hgrows, by simp, fun _ => hexpected⟩

/-- The loop ends behind an item. -/
theorem ItemsRead.last (hgrows : Grows h h' item.blocks) (hgranted : Granted grants h h')
    (hread : read [item] = [x]) (rest : Bytes) :
    ItemsRead grants h read (([item], some rest), h') (some ([x], rest)) := by
  refine ⟨by simpa [itemsBlocks] using hgrows, ?_, by simp⟩
  rintro _ ⟨⟩
  exact ⟨by rw [hread], hgranted⟩

/-- The loop goes on behind an item. -/
theorem ItemsRead.cons (hgrows : Grows h h' item.blocks) (hgranted : Granted grants h h')
    (hread : ∀ items, read (item :: items) = x :: read items)
    {r : (List Item × Option Bytes) × Heap} (hrest : ItemsRead grants h' read r expected) :
    ItemsRead grants h read ((item :: r.1.1, r.1.2), r.2)
      (expected.map (Prod.map (x :: ·) id)) := by
  refine ⟨?_, fun rest hsome => ?_, fun hnone hall => ?_⟩
  · rw [itemsBlocks]
    exact hgrows.trans hrest.grows
  · obtain ⟨heq, hg⟩ := hrest.success rest hsome
    refine ⟨?_, hgranted.trans hg⟩
    rw [heq, hread]
    rfl
  · rw [hrest.failure hnone (hall.of_left hgrows.calls_le)]
    rfl

end Items

theorem parseValue_nil (fuel depth : ℕ) : parseValue fuel depth [] = none := by
  cases fuel with
  | zero => rfl
  | succ fuel =>
    rw [parseValue]
    rfl

theorem parseElements_nil (fuel depth : ℕ) : parseElements fuel depth [] = none := by
  cases fuel with
  | zero => rfl
  | succ fuel =>
    rw [parseElements, parseValue_nil]
    rfl

theorem parseMembers_nil (fuel depth : ℕ) : parseMembers fuel depth [] = none := by
  cases fuel with
  | zero => rfl
  | succ fuel =>
    rw [parseMembers]
    rfl

/-- The three functions, each with the fuel of its counterpart. -/
private theorem read_aux (grants : ℕ → Bool) (fuel : ℕ) :
    (∀ depth block name s h, h.Named → ItemRead grants h block name
      (parseValueIn grants fuel depth block name s h) (parseValue fuel depth s)) ∧
    (∀ depth s h, h.Named → ItemsRead grants h itemValues
      (parseElementsIn grants fuel depth s h) (parseElements fuel depth s)) ∧
    (∀ depth s h, h.Named → ItemsRead grants h itemMembers
      (parseMembersIn grants fuel depth s h) (parseMembers fuel depth s)) := by
  induction fuel with
  | zero =>
    have hitems {α : Type} (read : List Item → List α) (h : Heap) :
        ItemsRead grants h read (([], none), h) none := ⟨.refl h, by simp, fun _ _ => rfl⟩
    simp only [parseValueIn, parseValue, parseElementsIn, parseElements, parseMembersIn,
      parseMembers]
    exact ⟨fun _ _ _ _ h _ => .none, fun _ _ h _ => hitems itemValues h,
      fun _ _ h _ => hitems itemMembers h⟩
  | succ fuel ih =>
    obtain ⟨ihValue, ihElements, ihMembers⟩ := ih
    refine ⟨?value, ?elements, ?members⟩
    case value =>
      intro depth block name s h hh
      rw [parseValueIn.eq_def, parseValue.eq_def]
      dsimp only
      split_ifs
      · exact .pure rfl rfl
      · exact .pure rfl rfl
      · exact .pure rfl rfl
      cases s with
      | nil => exact .none
      | cons c t =>
        dsimp only
        split_ifs with hstring hnumber harray hobject
        · have htext := textRead_parseStringIn grants (c :: t) hh
          generalize parseStringIn grants (c :: t) h = r at htext ⊢
          obtain ⟨_ | ⟨text, rest⟩, h'⟩ := r
          · obtain ⟨hgrows, hexpected⟩ := htext.failure rfl
            refine ⟨by simp, fun _ => ⟨hgrows, fun hg => ?_⟩⟩
            rw [hexpected hg]
            rfl
          · obtain ⟨hexpected, hgranted, hgrows⟩ := htext.success text rest rfl
            refine ⟨?_, by simp⟩
            rintro _ _ ⟨⟩
            refine ⟨?_, hgranted, rfl, [text.block], rfl, hgrows⟩
            rw [hexpected]
            rfl
        · cases parseNumber (c :: t) with
          | none => exact .none
          | some r => exact .pure rfl rfl
        · exact itemRead_enterListIn depth t hh (show itemValues [] = [] from rfl) (fun _ => rfl)
            (fun _ => rfl) (fun _ => rfl) (parseElements_nil _ _)
            fun u => ihElements (depth + 1) u h hh
        · exact itemRead_enterListIn depth t hh (show itemMembers [] = [] from rfl) (fun _ => rfl)
            (fun _ => rfl) (fun _ => rfl) (parseMembers_nil _ _)
            fun u => ihMembers (depth + 1) u h hh
        · exact .none
    case elements =>
      intro depth s h hh
      rw [parseElementsIn, parseElements]
      rcases hm : h.malloc grants with ⟨_ | new_item, h₁⟩
      · obtain ⟨hgrows, hrefused⟩ := grows_malloc_none hm
        exact ⟨hgrows, by simp, fun _ hg => absurd hg hrefused⟩
      obtain ⟨hgrows, hgranted⟩ := grows_malloc hm
      have hvalue := ihValue depth new_item none s h₁ (hh.of_grows hgrows)
      dsimp only
      generalize parseValueIn grants fuel depth new_item none s h₁ = r at hvalue ⊢
      obtain ⟨_ | ⟨item, t⟩, h₂⟩ := r
      · obtain ⟨hgrows', hexpected⟩ := hvalue.failure rfl
        refine .failed (hgrows.trans hgrows') fun hg => ?_
        rw [hexpected (hg.of_left hgrows.calls_le)]
        rfl
      · obtain ⟨hexpected, hgranted', -, bs, hblocks, hgrows'⟩ := hvalue.success item t rfl
        have hitem : Grows h h₂ item.blocks := by
          rw [hblocks]
          exact (hgrows.trans hgrows').perm List.perm_append_comm
        have hall := hgranted.trans hgranted'
        rw [hexpected]
        dsimp only [Option.bind_some]
        cases hw : skipWhitespace t with
        | nil => exact .failed hitem fun _ => rfl
        | cons c t' =>
          dsimp only
          split_ifs
          · have hcons (items : List Item) :
                itemValues (item :: items) = item.value :: itemValues items := rfl
            exact .cons hitem hall hcons
              (ihElements depth (skipWhitespace t') h₂ ((hh.of_grows hgrows).of_grows hgrows'))
          · exact .last hitem hall rfl t'
          · exact .failed hitem fun _ => rfl
    case members =>
      intro depth s h hh
      rw [parseMembersIn, parseMembers]
      rcases hm : h.malloc grants with ⟨_ | new_item, h₁⟩
      · obtain ⟨hgrows, hrefused⟩ := grows_malloc_none hm
        exact ⟨hgrows, by simp, fun _ hg => absurd hg hrefused⟩
      obtain ⟨hgrows₁, hgranted₁⟩ := grows_malloc hm
      have hh₁ := hh.of_grows hgrows₁
      have hname := textRead_parseStringIn grants s hh₁
      dsimp only
      generalize parseStringIn grants s h₁ = r at hname ⊢
      obtain ⟨_ | ⟨name, t⟩, h₂⟩ := r
      · obtain ⟨hgrows₂, hexpected⟩ := hname.failure rfl
        refine .failed (hgrows₁.trans hgrows₂) fun hg => ?_
        rw [hexpected (hg.of_left hgrows₁.calls_le)]
        rfl
      obtain ⟨hexpected, hgranted₂, hgrows₂⟩ := hname.success name t rfl
      have hh₂ := hh₁.of_grows hgrows₂
      -- an item with a name and no value
      have hnamed : Grows h h₂ (Item.invalid new_item (some name)).blocks :=
        (hgrows₁.trans hgrows₂).perm (List.perm_append_comm)
      rw [hexpected]
      dsimp only [Option.bind_some]
      cases hw : skipWhitespace t with
      | nil => exact .failed hnamed fun _ => rfl
      | cons c t' =>
        dsimp only
        split_ifs with hcolon
        · exact .failed hnamed fun _ => rfl
        have hvalue := ihValue depth new_item (some name) (skipWhitespace t') h₂ hh₂
        generalize parseValueIn grants fuel depth new_item (some name) (skipWhitespace t') h₂ = r
          at hvalue ⊢
        obtain ⟨_ | ⟨item, u⟩, h₃⟩ := r
        · obtain ⟨hgrows₃, hexpected'⟩ := hvalue.failure rfl
          refine .failed (by simpa using hnamed.trans hgrows₃) fun hg => ?_
          rw [hexpected' (hg.of_left hnamed.calls_le)]
          rfl
        obtain ⟨hexpected', hgranted₃, hitem_name, bs, hblocks, hgrows₃⟩ :=
          hvalue.success item u rfl
        have hitem : Grows h h₃ item.blocks := by
          rw [hblocks]
          exact (hnamed.trans hgrows₃).perm List.perm_append_comm
        have hall := (hgranted₁.trans hgranted₂).trans hgranted₃
        rw [hexpected']
        dsimp only [Option.bind_some]
        cases hw' : skipWhitespace u with
        | nil => exact .failed hitem fun _ => rfl
        | cons c' u' =>
          have hcons (items : List Item) :
              itemMembers (item :: items) = (name.bytes, item.value) :: itemMembers items := by
            rw [itemMembers, hitem_name]
            rfl
          dsimp only
          split_ifs
          · exact .cons hitem hall hcons
              (ihMembers depth (skipWhitespace u') h₃ (hh₂.of_grows hgrows₃))
          · exact .last hitem hall (hcons []) u'
          · exact .failed hitem fun _ => rfl

/-- **What the parser leaves behind.** It returns the value of the text and leaves just the blocks
of its item behind; or it leaves nothing behind, and then the text has no value or a block has been
refused. -/
structure Parsed (grants : ℕ → Bool) (h : Heap) (value : Bytes) (r : Option Item × Heap) :
    Prop where
  success : ∀ item, r.1 = some item →
    cJSONParse value = some item.value ∧ Granted grants h r.2 ∧ Grows h r.2 item.blocks
  failure : r.1 = none → Grows h r.2 [] ∧ (Granted grants h r.2 → cJSONParse value = none)

theorem parsed_cJSONParseIn (grants : ℕ → Bool) (value : Bytes) (hh : h.Named) :
    Parsed grants h value (cJSONParseIn grants value h) := by
  rw [cJSONParseIn]
  rcases hm : h.malloc grants with ⟨_ | block, h₁⟩
  · obtain ⟨hgrows, hrefused⟩ := grows_malloc_none hm
    exact ⟨by simp, fun _ => ⟨hgrows, fun hg => absurd hg hrefused⟩⟩
  obtain ⟨hgrows₁, hgranted₁⟩ := grows_malloc hm
  set s := skipWhitespace (skipUtf8Bom (cString value)) with hs
  have hitem := (read_aux grants (2 * s.length + 1)).1 0 block none s h₁ (hh.of_grows hgrows₁)
  have hparse : cJSONParse value = (parseValue (2 * s.length + 1) 0 s).map Prod.fst := rfl
  dsimp only
  generalize parseValueIn grants (2 * s.length + 1) 0 block none s h₁ = r at hitem ⊢
  obtain ⟨_ | ⟨item, rest⟩, h₂⟩ := r
  · obtain ⟨hgrows₂, hexpected⟩ := hitem.failure rfl
    have hinvalid : Grows h h₂ ((Item.invalid block none).blocks ++ []) := hgrows₁.trans hgrows₂
    refine ⟨by simp, fun _ => ⟨?_, fun hg => ?_⟩⟩
    · dsimp only
      rw [Item.delete_eq]
      exact hinvalid.freeAll hh
    · dsimp only at hg
      rw [Item.delete_eq, granted_freeAll] at hg
      rw [hparse, hexpected (hg.of_left hgrows₁.calls_le)]
      rfl
  · obtain ⟨hexpected, hgranted₂, -, bs, hblocks, hgrows₂⟩ := hitem.success item rest rfl
    refine ⟨?_, by simp⟩
    rintro _ ⟨⟩
    refine ⟨by rw [hparse, hexpected]; rfl, hgranted₁.trans hgranted₂, ?_⟩
    rw [hblocks]
    exact (hgrows₁.trans hgrows₂).perm List.perm_append_comm

/-- An item that has been parsed is deleted. -/
theorem Parsed.delete {value : Bytes} {item : Item} (hp : Parsed grants h value (some item, h'))
    (hh : h.Named) : Grows h (item.delete h') [] := by
  obtain ⟨-, -, hgrows⟩ := hp.success item rfl
  rw [← List.append_nil item.blocks] at hgrows
  rw [Item.delete_eq]
  exact hgrows.freeAll hh

/-- **Parsing and deleting.** Whatever the answers of `malloc`, `cJSON_Parse` frees all it has
allocated if it fails, and it fails on a text that has a value only if a block is refused. Otherwise
it returns the value of the text, the blocks of the tree are different from each other and from the
blocks that were live, and when the tree is deleted just these blocks are freed, each once. -/
theorem cJSONParseIn_delete (grants : ℕ → Bool) (value : Bytes) (hh : h.Named) :
    ((cJSONParseIn grants value h).1 = none →
      (cJSONParseIn grants value h).2.live = h.live ∧
      (cJSONParseIn grants value h).2.misuse = h.misuse ∧
      (Granted grants h (cJSONParseIn grants value h).2 → cJSONParse value = none)) ∧
    ∀ item, (cJSONParseIn grants value h).1 = some item →
      cJSONParse value = some item.value ∧ item.blocks.Nodup ∧
      (∀ b, b ∈ (cJSONParseIn grants value h).2.live ↔ b ∈ h.live ∨ b ∈ item.blocks) ∧
      (∀ b ∈ item.blocks, b ∉ h.live) ∧
      (item.delete (cJSONParseIn grants value h).2).live = h.live ∧
      (item.delete (cJSONParseIn grants value h).2).misuse = h.misuse := by
  have hp := parsed_cJSONParseIn grants value hh
  generalize cJSONParseIn grants value h = r at hp ⊢
  obtain ⟨item?, h'⟩ := r
  refine ⟨fun hnone => ?_, fun item hsome => ?_⟩
  · obtain ⟨hgrows, hexpected⟩ := hp.failure hnone
    exact ⟨hgrows.live_eq, hgrows.misuse_eq, hexpected⟩
  · dsimp only at hsome
    subst hsome
    obtain ⟨hvalue, -, hgrows⟩ := hp.success item rfl
    have hdelete := hp.delete hh
    refine ⟨hvalue, hgrows.nodup, hgrows.mem_live_iff, fun b hb hold => ?_, hdelete.live_eq,
      hdelete.misuse_eq⟩
    have hlt := hh b hold
    have hle := (hgrows.new b hb).1
    omega

end Parser

/-- The name of a member is refused. -/
theorem cJSONParseIn_delete_refused :
    (cJSONParseIn (fun k => k ≠ 2) (ascii "\x7b\"a\": 1\x7d") {}).2.live = ∅ := by
  have hdelete := cJSONParseIn_delete (fun k => k ≠ 2) (ascii "\x7b\"a\": 1\x7d")
    (show Heap.Named {} from fun b hb => absurd hb (Finset.notMem_empty b))
  exact (hdelete.1 (by decide +kernel)).1

end ModbusServer
