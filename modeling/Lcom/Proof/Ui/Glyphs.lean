import Lcom.Proof.DataStructs.LinkedList
import Lcom.Proof.Drivers.Blit
import Lcom.Proof.Ui.Rows

/-!
# Text in a menu

`Menu_create_ui_from_string` appends one element for each character, with a frame of one sheet that has the
glyphs of the alphabet below each other. The glyph of the character at place `i` of the alphabet occupies
the rows from `83 * i` up to `83 * (i + 1)`, so a row belongs to one glyph only, and the string can be read
off the elements.
-/

namespace Lcom

open Lib

/-- The characters that have a glyph: `,-./0123456789:ABCDEFGHIJKLMNOPQRSTUVWXYZ|`. -/
def alphabet : Text :=
  [44, 45, 46, 47] ++ (List.range 10).map (fun k => UInt8.ofNat (48 + k)) ++ [58] ++
    (List.range 26).map (fun k => UInt8.ofNat (65 + k)) ++ [124]

/-- The frame lies in an image of the size of `alphabet_sprites`, which is 44 × 3486. -/
def InSheet (offset size : Vec2) : Prop :=
  ∀ sheet : XpmImage, sheet.width = 44 → sheet.height = 3486 → Gpu.FrameInside sheet offset size

/-- The pixel of the sheet belongs to the glyph. -/
def InGlyph (c : UInt8) (px py : Nat) : Prop :=
  Gpu.InRect ⟨(calculateCharCoord c).x, (calculateCharCoord c).y⟩
    ⟨(calculateCharCoord c).width, (calculateCharCoord c).height⟩ px py

/-- The element stands at a place and has the glyph of a character for its frame. -/
structure UiElement.ShowsGlyph (element : UiElement) (c : UInt8) (place : Vec2) : Prop where
  position : element.aabb.position = place
  offset : Sprite.frameOf element.sprite.offsets element.sprite.current_frame =
    .ok ⟨(calculateCharCoord c).x, (calculateCharCoord c).y⟩
  size : Sprite.frameOf element.sprite.sizes element.sprite.current_frame =
    .ok ⟨(calculateCharCoord c).width, (calculateCharCoord c).height⟩
  inSheet : InSheet ⟨(calculateCharCoord c).x, (calculateCharCoord c).y⟩
    ⟨(calculateCharCoord c).width, (calculateCharCoord c).height⟩

/-- The character in whose glyph the frame of an element starts. -/
def UiElement.readGlyph (element : UiElement) : Option UInt8 := do
  let offset ← (Sprite.frameOf element.sprite.offsets element.sprite.current_frame).toOption
  alphabet[(offset.y / charHeight).toNat]?

/-- The text that the elements show. -/
def readText (elements : List UiElement) : Option Text := elements.mapM UiElement.readGlyph

/-- The elements show the characters of the string in a line, and nothing else. -/
structure Spells (str : Text) (start_x start_y : Int) (elements : List UiElement) : Prop where
  length : elements.length = str.length
  glyphs : ∀ (i : Nat) c, str[i]? = some c → ∃ element : UiElement, elements[i]? = some element ∧
    element.ShowsGlyph c ⟨start_x + 44 * i, start_y⟩
  read : readText elements = some str

/-! ## One glyph -/

/-- The branches of `calculate_char_coord` number the alphabet without a gap and without an overlap. -/
theorem exists_charIndex {c : UInt8} (hc : c ∈ alphabet) :
    ∃ i, i < 42 ∧ charIndex c = some i ∧ alphabet[i]? = some c := by
  have hall : ∀ c ∈ alphabet, ∃ i, i < 42 ∧ charIndex c = some i ∧ alphabet[i]? = some c := by
    decide +kernel
  exact hall c hc

/-- Where the glyph is. -/
theorem exists_calculateCharCoord {c : UInt8} (hc : c ∈ alphabet) :
    ∃ i : Nat, i < 42 ∧ alphabet[i]? = some c ∧ calculateCharCoord c = ⟨0, i * 83, 44, 83⟩ := by
  obtain ⟨i, hi, hindex, hat⟩ := exists_charIndex hc
  refine ⟨i, hi, hat, ?_⟩
  unfold calculateCharCoord
  rw [hindex]
  rfl

theorem width_calculateCharCoord {c : UInt8} (hc : c ∈ alphabet) :
    (calculateCharCoord c).width = 44 := by
  obtain ⟨i, -, -, hcoord⟩ := exists_calculateCharCoord hc
  rw [hcoord]

theorem inSheet_calculateCharCoord {c : UInt8} (hc : c ∈ alphabet) :
    InSheet ⟨(calculateCharCoord c).x, (calculateCharCoord c).y⟩
      ⟨(calculateCharCoord c).width, (calculateCharCoord c).height⟩ := by
  obtain ⟨i, hi, -, hcoord⟩ := exists_calculateCharCoord hc
  rw [hcoord]
  intro sheet hwidth hheight
  constructor <;> simp only [hwidth, hheight, UInt16.reduceToNat] <;> omega

/-- The row of a pixel tells whose glyph it is in. -/
theorem InGlyph.read {c : UInt8} {px py : Nat} (hc : c ∈ alphabet) (h : InGlyph c px py) :
    alphabet[py / 83]? = some c := by
  obtain ⟨i, -, hat, hcoord⟩ := exists_calculateCharCoord hc
  unfold InGlyph Gpu.InRect at h
  rw [hcoord] at h
  dsimp only at h
  have hrow : py / 83 = i := by omega
  rw [hrow, hat]

theorem InGlyph.unique {c c' : UInt8} {px py : Nat} (hc : c ∈ alphabet) (hc' : c' ∈ alphabet)
    (h : InGlyph c px py) (h' : InGlyph c' px py) : c = c' :=
  Option.some.inj ((h.read hc).symm.trans (h'.read hc'))

/-! ## The elements of a string -/

namespace Menu

/-- The element for a character. -/
def glyphElement (assets : Assets) (c : UInt8) (place : Vec2) (transparent : Bool) : UiElement :=
  singleFrame ⟨place, ⟨60, 80⟩⟩ assets.alphabet_sprites
    ⟨(calculateCharCoord c).x, (calculateCharCoord c).y⟩
    ⟨(calculateCharCoord c).width, (calculateCharCoord c).height⟩ none transparent

/-- The elements for a string, when `k` elements are in the menu already. -/
def stringElements (assets : Assets) (fresh : Nat → Bool) :
    Nat → Text → Int → Int → List UiElement
  | _, [], _, _ => []
  | k, c :: str, x, y =>
    glyphElement assets c ⟨x, y⟩ (fresh k) ::
      stringElements assets fresh (k + 1) str (x + (calculateCharCoord c).width) y

variable {assets : Assets} {fresh : Nat → Bool} {str : Text} {x y : Int} {k : Nat}

theorem element_createUiFromString (assets : Assets) (fresh : Nat → Bool) (str : Text) (x y : Int)
    (menu : Menu) : (createUiFromString assets fresh str x y menu).element =
      menu.element ++ stringElements assets fresh menu.element.length str x y := by
  induction str generalizing x menu with
  | nil => exact (List.append_nil _).symm
  | cons c str ih =>
    rw [createUiFromString, ih, stringElements, append, List.length_append, List.append_assoc]
    rfl

theorem length_stringElements :
    (stringElements assets fresh k str x y).length = str.length := by
  induction str generalizing k x with
  | nil => rfl
  | cons c str ih => rw [stringElements, List.length_cons, ih, List.length_cons]

/-- The glyphs are 44 pixels wide, so the `i`-th element is `44 * i` pixels further to the right. -/
theorem getElem?_stringElements (hstr : ∀ c ∈ str, c ∈ alphabet) (i : Nat) :
    (stringElements assets fresh k str x y)[i]? =
      str[i]?.map fun c => glyphElement assets c ⟨x + 44 * i, y⟩ (fresh (k + i)) := by
  induction str generalizing k x i with
  | nil => rfl
  | cons c str ih =>
    cases i with
    | zero =>
      simp [stringElements]
    | succ i =>
      have hplace : x + (calculateCharCoord c).width + 44 * (i : Int) = x + 44 * (i + 1 : Nat) := by
        rw [width_calculateCharCoord (hstr c List.mem_cons_self)]
        omega
      have hk : k + 1 + i = k + (i + 1) := by omega
      rw [stringElements, List.getElem?_cons_succ, List.getElem?_cons_succ,
        ih (fun c hc => hstr c (List.mem_cons_of_mem _ hc)), hplace, hk]

theorem showsGlyph_glyphElement {c : UInt8} (hc : c ∈ alphabet) (place : Vec2)
    (transparent : Bool) : (glyphElement assets c place transparent).ShowsGlyph c place :=
  ⟨rfl, rfl, rfl, inSheet_calculateCharCoord hc⟩

theorem readGlyph_glyphElement {c : UInt8} (hc : c ∈ alphabet) (place : Vec2)
    (transparent : Bool) : (glyphElement assets c place transparent).readGlyph = some c := by
  obtain ⟨i, -, hat, hcoord⟩ := exists_calculateCharCoord hc
  change alphabet[((calculateCharCoord c).y / charHeight).toNat]? = some c
  rw [hcoord]
  unfold charHeight
  have hrow : ((i : Int) * 83 / 83).toNat = i := by omega
  rw [hrow, hat]

theorem readText_stringElements (hstr : ∀ c ∈ str, c ∈ alphabet) :
    readText (stringElements assets fresh k str x y) = some str := by
  unfold readText
  induction str generalizing k x with
  | nil => rfl
  | cons c str ih =>
    rw [stringElements, List.mapM_cons, readGlyph_glyphElement (hstr c List.mem_cons_self),
      ih fun c hc => hstr c (List.mem_cons_of_mem _ hc)]
    rfl

theorem spells_stringElements (hstr : ∀ c ∈ str, c ∈ alphabet) :
    Spells str x y (stringElements assets fresh k str x y) where
  length := length_stringElements
  glyphs i c hat := by
    have hc : c ∈ alphabet := hstr c (List.mem_of_getElem? hat)
    rw [getElem?_stringElements hstr, hat]
    exact ⟨_, rfl, showsGlyph_glyphElement hc _ _⟩
  read := readText_stringElements hstr

/-- **The text of a menu.** The string is spelled after what was in the menu, another string gives other
    elements, and no pixel belongs to the glyphs of two characters. -/
theorem createUiFromString_spells (assets : Assets) (fresh : Nat → Bool) (menu : Menu)
    (start_x start_y : Int) (str : Text) (hstr : ∀ c ∈ str, c ∈ alphabet) :
    (∃ elements,
        (createUiFromString assets fresh str start_x start_y menu).element =
          menu.element ++ elements ∧ Spells str start_x start_y elements) ∧
      (∀ str', (∀ c ∈ str', c ∈ alphabet) →
        (createUiFromString assets fresh str' start_x start_y menu).element =
          (createUiFromString assets fresh str start_x start_y menu).element → str' = str) ∧
      ∀ c ∈ alphabet, ∀ c' ∈ alphabet, c ≠ c' → ∀ px py, ¬ (InGlyph c px py ∧ InGlyph c' px py) := by
  refine ⟨?_, ?_, ?_⟩
  · rw [element_createUiFromString]
    exact ⟨_, rfl, spells_stringElements hstr⟩
  · intro str' hstr' heq
    rw [element_createUiFromString, element_createUiFromString] at heq
    have hread := congrArg readText (List.append_cancel_left heq)
    rw [readText_stringElements hstr, readText_stringElements hstr'] at hread
    exact Option.some.inj hread
  · rintro c hc c' hc' hne px py ⟨hin, hin'⟩
    exact hne (hin.unique hc hc' hin')

/-- Behind the buttons of the main menu. -/
theorem createUiFromString_spells_word : ∃ elements,
    (createUiFromString noAssets (fun _ => false) [65, 49] 30 240
        (createMainMenu noAssets fun _ => false)).element =
      (createMainMenu noAssets fun _ => false).element ++ elements ∧ Spells [65, 49] 30 240 elements :=
  (createUiFromString_spells noAssets (fun _ => false) (createMainMenu noAssets fun _ => false)
    30 240 [65, 49] (by decide +kernel)).1

/-! ## The nodes of the menu -/

/-- Where the elements of the menu hang on nodes, the calls of `Node_append` that the loop makes leave
    nodes for the elements of the new menu. -/
theorem createUiFromString_nodes {heap₀ : Heap Addr (Node UiElement)} {list : NodeList UiElement}
    {cells : List (Addr × Node UiElement)} {menu : Menu} {blocks : List Addr} {fuel : Nat}
    (hlist : list.Owns heap₀ cells) (hmenu : dataOf cells = menu.element)
    (hblocks : blocks.length = str.length) (hnodup : blocks.Nodup)
    (hfree : ∀ a ∈ blocks, list.heap a = none) (hfuel : cells.length + str.length ≤ fuel) :
    ∃ list' cells',
      (blocks.zip (stringElements assets fresh menu.element.length str x y)).foldlM
          (fun list block => Node.append fuel list (some block.1) block.2) list = .ok list' ∧
        list'.Owns heap₀ cells' ∧
        dataOf cells' = (createUiFromString assets fresh str x y menu).element := by
  have hlength : blocks.length = (stringElements assets fresh menu.element.length str x y).length :=
    hblocks.trans length_stringElements.symm
  have haddr := List.map_fst_zip hlength.le
  have hdata := List.map_snd_zip hlength.ge
  have hcalls : cells.length +
      (blocks.zip (stringElements assets fresh menu.element.length str x y)).length ≤ fuel := by
    rw [List.length_zip, ← hlength, min_self, hblocks]
    exact hfuel
  obtain ⟨list', cells', happends, hlist', hcells'⟩ := Node.appends_spec hlist hcalls
    (by rw [haddr]; exact hnodup) (by rw [haddr]; exact hfree)
  refine ⟨list', cells', happends, hlist', ?_⟩
  rw [hcells', hdata, hmenu, element_createUiFromString]

end Menu

end Lcom
