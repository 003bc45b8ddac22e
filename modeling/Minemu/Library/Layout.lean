import Minemu.Library.Fields
import Minemu.Library.Overlay

/-! Laying items out one behind the other, and writing pieces over a byte string. -/

namespace Minemu.Library

/-! ### Places -/

section Places

variable {Item : Type u} (round : Nat → Nat) (size : Item → Nat)

/-- Each item with its place: the rounded cursor, which then moves behind the item. -/
def layOut : Nat → List Item → List (Nat × Item)
  | _, [] => []
  | cursor, item :: items => (round cursor, item) :: layOut (round cursor + size item) items

/-- The cursor behind the last item. -/
def layOutEnd : Nat → List Item → Nat
  | cursor, [] => cursor
  | cursor, item :: items => layOutEnd (round cursor + size item) items

@[simp] theorem map_snd_layOut (cursor : Nat) (items : List Item) :
    (layOut round size cursor items).map Prod.snd = items := by
  induction items generalizing cursor with
  | nil => rfl
  | cons item items ih => rw [layOut, List.map_cons, ih]

@[simp] theorem length_layOut (cursor : Nat) (items : List Item) :
    (layOut round size cursor items).length = items.length := by
  rw [← List.length_map (f := Prod.snd), map_snd_layOut]

/-- Without rounding the items take their sizes together. -/
theorem layOutEnd_id (cursor : Nat) (items : List Item) :
    layOutEnd id size cursor items = cursor + (items.map size).sum := by
  induction items generalizing cursor with
  | nil => rfl
  | cons item items ih => rw [layOutEnd, ih, id, List.map_cons, List.sum_cons, Nat.add_assoc]

variable {round} {size}

/-- Only items that were laid out have a place. -/
theorem mem_of_mem_layOut {cursor : Nat} {items : List Item} {placed : Nat × Item}
    (member : placed ∈ layOut round size cursor items) : placed.2 ∈ items := by
  have inside := List.mem_map_of_mem (f := Prod.snd) member
  rwa [map_snd_layOut] at inside

/-- A layout stays below a bound when no item crosses it. -/
theorem layOutEnd_lt {bound : Nat} {items : List Item} {cursor : Nat} (below : cursor < bound)
    (each : ∀ placed ∈ layOut id size cursor items, placed.1 < bound →
      placed.1 + size placed.2 < bound) : layOutEnd id size cursor items < bound := by
  induction items generalizing cursor with
  | nil => exact below
  | cons item items ih =>
    rw [layOut, List.forall_mem_cons] at each
    exact ih (each.1 below) each.2

/-- A loop that notes each item at its place, where it fits, notes the layout. -/
theorem layOut_eq_ok {Error : Type v} {Note : Type w}
    {turn : Nat × List Note → Item → Except Error (Nat × List Note)} {fits : Nat × Item → Prop}
    {note : Nat × Item → Note}
    (turns : ∀ cursor notes item after, turn (cursor, notes) item = .ok after ↔
      fits (round cursor, item) ∧
        after = (round cursor + size item, notes ++ [note (round cursor, item)]))
    (items : List Item) (cursor : Nat) (notes : List Note) (after : Nat × List Note) :
    items.foldlM turn (cursor, notes) = .ok after ↔
      (∀ placed ∈ layOut round size cursor items, fits placed) ∧
        after = (layOutEnd round size cursor items,
          notes ++ (layOut round size cursor items).map note) := by
  induction items generalizing cursor notes with
  | nil => simp [layOut, layOutEnd, pure, Except.pure, eq_comm]
  | cons item items ih =>
    rw [List.foldlM_cons, bind_eq_ok, layOut, layOutEnd, List.forall_mem_cons, List.map_cons]
    constructor
    · rintro ⟨next, turned, done⟩
      obtain ⟨first, rfl⟩ := (turns cursor notes item next).mp turned
      obtain ⟨rest, rfl⟩ := (ih _ _).mp done
      exact ⟨⟨first, rest⟩, by rw [List.append_assoc, List.singleton_append]⟩
    · rintro ⟨⟨first, rest⟩, rfl⟩
      refine ⟨_, (turns cursor notes item _).mpr ⟨first, rfl⟩, (ih _ _).mpr ⟨rest, ?_⟩⟩
      rw [List.append_assoc, List.singleton_append]

end Places

/-! ### Parts in order -/

namespace Span

variable {Part : Type u} (spanOf : Part → Span)

/-- Parts whose ranges are in order between two points, none reaching into the next. -/
structure Laid (start stop : Nat) (parts : List Part) : Prop where
  ordered : start ≤ stop
  inside : ∀ part ∈ parts, start ≤ (spanOf part).start ∧ (spanOf part).stop ≤ stop
  sorted : parts.Pairwise fun part other => (spanOf part).stop ≤ (spanOf other).start

variable {spanOf}

namespace Laid

variable {start middle stop : Nat} {first second parts other : List Part}

theorem nil (ordered : start ≤ stop) : Laid spanOf start stop [] := ⟨ordered, by simp, .nil⟩

theorem single {part : Part} (starts : (spanOf part).start = start)
    (stops : (spanOf part).stop = stop) : Laid spanOf start stop [part] := by
  subst starts stops
  exact ⟨(spanOf part).ordered, by simp, by simp⟩

theorem append (before : Laid spanOf start middle first) (behind : Laid spanOf middle stop second) :
    Laid spanOf start stop (first ++ second) := by
  refine ⟨before.ordered.trans behind.ordered, ?_, List.pairwise_append.mpr
    ⟨before.sorted, behind.sorted, ?_⟩⟩
  · intro part member
    rcases List.mem_append.mp member with left | right
    · obtain ⟨above, below⟩ := before.inside part left
      exact ⟨above, below.trans behind.ordered⟩
    · obtain ⟨above, below⟩ := behind.inside part right
      exact ⟨before.ordered.trans above, below⟩
  · intro part left other right
    exact (before.inside part left).2.trans (behind.inside other right).1

/-- A gap in front. -/
theorem behind (gap : start ≤ middle) (laid : Laid spanOf middle stop parts) :
    Laid spanOf start stop parts :=
  (nil gap).append laid

/-- In whatever order the parts are met, their ranges are apart. -/
theorem apart (laid : Laid spanOf start stop parts) (perm : parts.Perm other) :
    other.Pairwise fun part later => (spanOf part).Apart (spanOf later) := by
  have ordered : parts.Pairwise fun part later => (spanOf part).Apart (spanOf later) := by
    refine laid.sorted.imp ?_
    intro part later before overlap
    omega
  exact ordered.perm perm fun apart => apart.symm

theorem fits (laid : Laid spanOf start stop parts) (perm : parts.Perm other) :
    ∀ part ∈ other, (spanOf part).stop ≤ stop := by
  intro part member
  exact (laid.inside part (perm.mem_iff.mpr member)).2

end Laid

/-- The parts of items that are laid out, each within its own item. -/
theorem laid_layOut {Item : Type v} {Entry : Type w} {round : Nat → Nat} {size : Item → Nat}
    {placed : Entry → Nat × Item} {partsOf : Entry → List Part} {entries : List Entry}
    {items : List Item} {cursor : Nat} (rounds : ∀ cursor, cursor ≤ round cursor)
    (entered : entries.map placed = layOut round size cursor items)
    (each : ∀ entry ∈ entries,
      Laid spanOf (placed entry).1 ((placed entry).1 + size (placed entry).2) (partsOf entry)) :
    Laid spanOf cursor (layOutEnd round size cursor items) (entries.flatMap partsOf) := by
  induction entries generalizing items cursor with
  | nil =>
    cases items with
    | nil => exact .nil le_rfl
    | cons item items => cases entered
  | cons entry entries ih =>
    cases items with
    | nil => cases entered
    | cons item items =>
      obtain ⟨same, rest⟩ := List.cons.inj entered
      rw [List.forall_mem_cons, same] at each
      rw [layOutEnd, List.flatMap_cons]
      exact (each.1.append (ih rest each.2)).behind (rounds cursor)

/-- The parts of the rows of a table, each within its own row. -/
theorem laid_rows {Row : Type v} {partsOf : Row × Nat → List Part} (start width : Nat)
    (rows : List Row) (each : ∀ row ∈ rows.zipIdx,
      Laid spanOf (start + row.2 * width) (start + row.2 * width + width) (partsOf row)) :
    Laid spanOf start (start + rows.length * width) (rows.zipIdx.flatMap partsOf) := by
  have shifted (index : Nat) : (∀ row ∈ rows.zipIdx index,
      Laid spanOf (start + row.2 * width) (start + row.2 * width + width) (partsOf row)) →
      Laid spanOf (start + index * width) (start + (index + rows.length) * width)
        ((rows.zipIdx index).flatMap partsOf) := by
    clear each
    induction rows generalizing index with
    | nil => exact fun _ => .nil le_rfl
    | cons row rows ih =>
      intro each
      rw [List.zipIdx_cons, List.forall_mem_cons] at each
      have rest := ih (index + 1) each.2
      have next : start + (index + 1) * width = start + index * width + width := by ring
      have last : index + (row :: rows).length = index + 1 + rows.length := by
        rw [List.length_cons]
        omega
      rw [next] at rest
      rw [List.zipIdx_cons, List.flatMap_cons, last]
      exact each.1.append rest
  simpa only [Nat.zero_mul, Nat.zero_add, Nat.add_zero] using shifted 0 each

/-- Every item is behind the cursor and before the end. -/
theorem layOut_inside {Item : Type u} {round : Nat → Nat} {size : Item → Nat} {items : List Item}
    (rounds : ∀ cursor, cursor ≤ round cursor) {cursor : Nat} {placed : Nat × Item}
    (member : placed ∈ layOut round size cursor items) :
    cursor ≤ placed.1 ∧ placed.1 + size placed.2 ≤ layOutEnd round size cursor items := by
  have laid : Laid (fun placed : Nat × Item =>
        (⟨placed.1, placed.1 + size placed.2, Nat.le_add_right _ _⟩ : Span))
      cursor (layOutEnd round size cursor items)
      ((layOut round size cursor items).flatMap fun placed => [placed]) :=
    laid_layOut rounds (List.map_id _) fun _ _ => .single rfl rfl
  exact laid.inside placed (List.mem_flatMap.mpr ⟨placed, member, .head _⟩)

theorem le_layOutEnd {Item : Type u} {round : Nat → Nat} {size : Item → Nat}
    (rounds : ∀ cursor, cursor ≤ round cursor) (cursor : Nat) (items : List Item) :
    cursor ≤ layOutEnd round size cursor items := by
  have laid : Laid id cursor (layOutEnd round size cursor items)
      ((layOut round size cursor items).flatMap fun _ => []) :=
    laid_layOut rounds (List.map_id _) fun _ _ => .nil (Nat.le_add_right _ _)
  exact laid.ordered

end Span

/-- What stands with the rows of a table can be met behind the table. -/
theorem flatMap_rows_perm {Row : Type u} {Part : Type v} (rows : List Row)
    (partsOf : Row × Nat → List Part) (behind : Row → List Part) :
    (rows.zipIdx.flatMap partsOf ++ rows.flatMap behind).Perm
      (rows.zipIdx.flatMap fun row => partsOf row ++ behind row.1) := by
  have plain : rows.flatMap behind = rows.zipIdx.flatMap fun row => behind row.1 := by
    conv_lhs => rw [← List.zipIdx_map_fst 0 rows, List.flatMap_map]
  rw [plain]
  exact List.flatMap_append_perm _ _ _

/-- What holds of every numbered row relates the numbers to the rows. -/
theorem forall₂_rows {Row : Type u} {Part : Type v} {rows : List Row} {partOf : Row → Part}
    {R : Nat → Part → Prop} (each : ∀ row ∈ rows.zipIdx, R row.2 (partOf row.1)) :
    List.Forall₂ R (List.range rows.length) (rows.map partOf) := by
  have numbers : List.range rows.length = rows.zipIdx.map Prod.snd := by
    rw [List.zipIdx_map_snd, List.range_eq_range']
  have parts : rows.map partOf = rows.zipIdx.map fun row => partOf row.1 := by
    conv_lhs => rw [← List.zipIdx_map_fst 0 rows, List.map_map]
    rfl
  rw [numbers, parts, List.forall₂_map_left_iff, List.forall₂_map_right_iff, List.forall₂_same]
  exact each

/-! ### Writing pieces -/

/-- The range of a piece. -/
def Piece.span (piece : Piece α) : Span :=
  ⟨piece.start, piece.start + piece.data.length, Nat.le_add_right _ _⟩

/-- The string with the pieces written over it in order. -/
def patchAll (bytes : List Byte) (pieces : List (Piece Byte)) : List Byte :=
  pieces.foldl (fun bytes piece => patch bytes piece.start piece.data) bytes

section Patching

variable {bytes : List Byte} {pieces : List (Piece Byte)} {piece : Piece Byte}

@[simp] theorem length_patchAll (bytes : List Byte) (pieces : List (Piece Byte)) :
    (patchAll bytes pieces).length = bytes.length := by
  induction pieces generalizing bytes with
  | nil => rfl
  | cons piece pieces ih => exact (ih _).trans (length_patch _ _ _)

theorem patchAll_cons (bytes : List Byte) (piece : Piece Byte) (pieces : List (Piece Byte)) :
    patchAll bytes (piece :: pieces) = patchAll (patchAll bytes [piece]) pieces := rfl

theorem patchAll_append (bytes : List Byte) (first second : List (Piece Byte)) :
    patchAll bytes (first ++ second) = patchAll (patchAll bytes first) second :=
  List.foldl_append

/-- A loop that writes the pieces of each item writes all pieces. -/
theorem patchAll_loop {Item : Type u} {Error : Type v}
    {turn : List Byte → Item → Except Error (List Byte)} {piecesOf : Item → List (Piece Byte)}
    {items : List Item} {length : Nat}
    (turns : ∀ item ∈ items, ∀ bytes, bytes.length = length →
      turn bytes item = .ok (patchAll bytes (piecesOf item)))
    (bytes : List Byte) (long : bytes.length = length) :
    items.foldlM turn bytes = .ok (patchAll bytes (items.flatMap piecesOf)) := by
  induction items generalizing bytes with
  | nil => rfl
  | cons item items ih =>
    rw [List.forall_mem_cons] at turns
    rw [List.foldlM_cons, turns.1 bytes long, List.flatMap_cons, patchAll_append]
    exact ih turns.2 _ ((length_patchAll _ _).trans long)

/-- A loop that writes the pieces of numbered notes writes the pieces of what was noted. -/
theorem patchAll_rows {Entry : Type u} {Note : Type w} {Error : Type v} {note : Entry → Note}
    {turn : List Byte → Note × Nat → Except Error (List Byte)}
    {piecesOf : Entry × Nat → List (Piece Byte)} {entries : List Entry} {length : Nat}
    (turns : ∀ row ∈ entries.zipIdx, ∀ bytes, bytes.length = length →
      turn bytes (note row.1, row.2) = .ok (patchAll bytes (piecesOf row)))
    (bytes : List Byte) (long : bytes.length = length) :
    (entries.map note).zipIdx.foldlM turn bytes =
      .ok (patchAll bytes (entries.zipIdx.flatMap piecesOf)) := by
  rw [List.zipIdx_map, List.foldlM_map]
  exact patchAll_loop turns bytes long

/-- What no piece covers stays. -/
theorem getElem?_patchAll (fits : ∀ piece ∈ pieces, piece.span.stop ≤ bytes.length) {place : Nat}
    (clear : ∀ piece ∈ pieces, place ∉ piece.span.points) :
    (patchAll bytes pieces)[place]? = bytes[place]? := by
  induction pieces generalizing bytes with
  | nil => rfl
  | cons piece pieces ih =>
    rw [List.forall_mem_cons] at fits clear
    have later : ∀ other ∈ pieces, other.span.stop ≤
        (patch bytes piece.start piece.data).length := by
      simpa only [length_patch] using fits.2
    refine (ih later clear.2).trans ?_
    rw [getElem?_patch fits.1, if_neg]
    exact clear.1

/-- A slice that no piece meets stays. -/
theorem slice?_patchAll_apart (fits : ∀ piece ∈ pieces, piece.span.stop ≤ bytes.length) {span : Span}
    (apart : ∀ piece ∈ pieces, span.Apart piece.span) :
    slice? (patchAll bytes pieces) span.start span.stop = slice? bytes span.start span.stop := by
  induction pieces generalizing bytes with
  | nil => rfl
  | cons piece pieces ih =>
    rw [List.forall_mem_cons] at fits apart
    have later : ∀ other ∈ pieces, other.span.stop ≤
        (patch bytes piece.start piece.data).length := by
      simpa only [length_patch] using fits.2
    refine (ih later apart.2).trans (slice?_overwrite_disjoint (patch_of_fits fits.1) ?_)
    have meets := apart.1
    simp only [Span.Apart, Piece.span] at meets
    omega

/-- Pieces that are apart read back, each as it was written. -/
theorem slice?_patchAll (fits : ∀ piece ∈ pieces, piece.span.stop ≤ bytes.length)
    (apart : pieces.Pairwise fun piece other => piece.span.Apart other.span)
    (member : piece ∈ pieces) :
    slice? (patchAll bytes pieces) piece.span.start piece.span.stop = some piece.data := by
  induction pieces generalizing bytes with
  | nil => cases member
  | cons first pieces ih =>
    rw [List.forall_mem_cons] at fits
    rw [List.pairwise_cons] at apart
    have later : ∀ other ∈ pieces, other.span.stop ≤
        (patch bytes first.start first.data).length := by
      simpa only [length_patch] using fits.2
    rcases List.mem_cons.mp member with rfl | behind
    · exact (slice?_patchAll_apart later apart.1).trans
        (slice?_overwrite (patch_of_fits fits.1))
    · exact ih later apart.2 behind

end Patching

end Minemu.Library
