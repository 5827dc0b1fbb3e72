import Mathlib.Data.Vector.Defs
import SwarmLlm.Lib.Bytes

namespace Lib

open List hiding Vector

-- A decoder may refuse its input; reading outside of it is a fault of its own.
inductive Fault (E : Type) where
  | refused (error : E)
  | outOfBounds
  deriving DecidableEq

abbrev Checked (E R : Type) := Except (Fault E) R

variable {E R S : Type}

def refuse (error : E) : Checked E R := .error (.refused error)

@[simp] theorem ok_bind (value : S) (next : S → Checked E R) : ((.ok value : Checked E S) >>= next) = next value := rfl

def byteAt (data : Bytes) (index : Nat) : Checked E UInt8 :=
  match data[index]? with
  | some byte => .ok byte
  | none => .error .outOfBounds

def slice (data : Bytes) (start stop : Nat) : Checked E Bytes :=
  if start ≤ stop ∧ stop ≤ data.length then .ok ((data.drop start).take (stop - start)) else .error .outOfBounds

def u16Bytes (value : UInt16) : Bytes := leBytes 2 value.toNat

def u32Bytes (value : UInt32) : Bytes := leBytes 4 value.toNat

def u64Bytes (value : UInt64) : Bytes := leBytes 8 value.toNat

def wordAt (count : Nat) (data : Bytes) (start : Nat) : Checked E Nat := do
  return fromLe (← slice data start (start + count))

def u16At (data : Bytes) (start : Nat) : Checked E UInt16 := do return UInt16.ofNat (← wordAt 2 data start)

def u32At (data : Bytes) (start : Nat) : Checked E UInt32 := do return UInt32.ofNat (← wordAt 4 data start)

def u64At (data : Bytes) (start : Nat) : Checked E UInt64 := do return UInt64.ofNat (← wordAt 8 data start)

def toArray (count : Nat) (bytes : Bytes) : Vector UInt8 count := Vector.ofFn fun i => bytes.getD i.val 0

def arrayAt (count : Nat) (data : Bytes) (start : Nat) : Checked E (Vector UInt8 count) := do
  return toArray count (← slice data start (start + count))

def Left (data : Bytes) (cursor : Nat) (rest : Bytes) : Prop := ∃ before, data = before ++ rest ∧ before.length = cursor

theorem left_start (data : Bytes) : Left data 0 data := ⟨[], rfl, rfl⟩

variable {short : Prop} (items : List S) {error : E} {byte : UInt8} {part : UInt8 × Bytes} (limit width : Nat)
  (parse : Bytes → Nat → Checked E R) {encode : R → Bytes} {holds : R → Prop} {value : R} {middle : S} (marker : UInt8)
  {after count cursor : Nat} {field others post rest data : Bytes}

theorem left_length (left : Left data cursor rest) : data.length = cursor + rest.length := by
  obtain ⟨before, rfl, rfl⟩ := left
  exact length_append

theorem left_skip (left : Left data cursor (field ++ rest)) (width : field.length = count) : Left data (cursor + count) rest := by
  obtain ⟨before, rfl, rfl⟩ := left
  refine ⟨before ++ field, (append_assoc before field rest).symm, ?_⟩
  rw [length_append, width]

theorem left_next (left : Left data cursor (byte :: rest)) : Left data (cursor + 1) rest :=
  left_skip (show Left data cursor ([byte] ++ rest) from left) rfl

theorem left_u32 {value : UInt32} (left : Left data cursor (u32Bytes value ++ rest)) :
    Left data (cursor + 4) rest := left_skip left (length_le_bytes 4)

theorem byte_at_left (left : Left data cursor (byte :: rest)) : byteAt data cursor = (.ok byte : Checked E UInt8) := by
  obtain ⟨before, rfl, rfl⟩ := left
  rw [byteAt, getElem?_append_right (le_refl _), Nat.sub_self, getElem?_cons_zero]

theorem slice_left (left : Left data cursor (field ++ rest)) (width : field.length = count) :
    slice data cursor (cursor + count) = (.ok field : Checked E Bytes) := by
  obtain ⟨before, rfl, rfl⟩ := left
  have inside : before.length ≤ before.length + count ∧ before.length + count ≤ (before ++ (field ++ rest)).length := by
    simp only [length_append]
    omega
  rw [slice, if_pos inside, drop_left, Nat.add_sub_cancel_left, take_left' width]

theorem word_at_left {value : Nat} (left : Left data cursor (leBytes count value ++ rest)) :
    wordAt count data cursor = (.ok (value % 256 ^ count) : Checked E Nat) := by
  rw [wordAt, slice_left left (length_le_bytes count), ← from_le_le_bytes]
  rfl

theorem u16_at_left {value : UInt16} (left : Left data cursor (u16Bytes value ++ rest)) :
    u16At data cursor = (.ok value : Checked E UInt16) := by
  rw [u16At, word_at_left left, Nat.mod_eq_of_lt (show value.toNat < 256 ^ 2 from value.toNat_lt)]
  exact congrArg Except.ok UInt16.ofNat_toNat

theorem u32_at_left {value : UInt32} (left : Left data cursor (u32Bytes value ++ rest)) :
    u32At data cursor = (.ok value : Checked E UInt32) := by
  rw [u32At, word_at_left left, Nat.mod_eq_of_lt (show value.toNat < 256 ^ 4 from value.toNat_lt)]
  exact congrArg Except.ok UInt32.ofNat_toNat

theorem u64_at_left {value : UInt64} (left : Left data cursor (u64Bytes value ++ rest)) :
    u64At data cursor = (.ok value : Checked E UInt64) := by
  rw [u64At, word_at_left left, Nat.mod_eq_of_lt (show value.toNat < 256 ^ 8 from value.toNat_lt)]
  exact congrArg Except.ok UInt64.ofNat_toNat

variable {array : Vector UInt8 count}

theorem to_array_to_list : toArray count array.toList = array := by
  ext i bound
  simp [toArray]

theorem array_at_left (left : Left data cursor (array.toList ++ rest)) :
    arrayAt count data cursor = (.ok array : Checked E (Vector UInt8 count)) := by
  rw [arrayAt, slice_left left array.length_toList]
  exact congrArg Except.ok to_array_to_list

-- A reader moves the cursor past what it takes and may leave it where it was.
def Reader (E R : Type) := Bytes → Nat → Checked E (R × Nat)

instance : Monad (Reader E) where
  pure value := fun _ cursor => .ok (value, cursor)
  bind first next := fun data cursor =>
    match first data cursor with
    | .ok (value, after) => next value data after
    | .error fault => .error fault

-- The reader takes exactly these bytes for this value when `post` follows them.
def Reads (reader : Reader E R) (bytes post : Bytes) (value : R) : Prop :=
  ∀ data cursor, Left data cursor (bytes ++ post) → reader data cursor = .ok (value, cursor + bytes.length)

def Refuses (reader : Reader E R) (bytes post : Bytes) (error : E) : Prop :=
  ∀ data cursor, Left data cursor (bytes ++ post) → reader data cursor = refuse error

theorem reads_pure (value : R) : Reads (pure value : Reader E R) [] post value :=
  fun _ _ _ => rfl

variable {reader : Reader E R} {next : S → Reader E R} {first : Reader E S} {bytes : Bytes}

theorem bind_ok (read : first data cursor = .ok (middle, after)) : (first >>= next) data cursor = next middle data after := by
  change (match first data cursor with
    | .ok (value, after) => next value data after
    | .error fault => .error fault) = _
  rw [read]

theorem reads_bind (reads : Reads first bytes (others ++ post) middle)
    (continues : Reads (next middle) others post value) : Reads (first >>= next) (bytes ++ others) post value := by
  intro data cursor left
  rw [append_assoc] at left
  rw [bind_ok (reads data cursor left), continues data (cursor + bytes.length) (left_skip left rfl), length_append, add_assoc]

theorem reads_then (reads : Reads first bytes post middle)
    (continues : Reads (next middle) [] post value) : Reads (first >>= next) bytes post value := by
  have both := reads_bind (show Reads first bytes ([] ++ post) middle from reads) continues
  rwa [append_nil] at both

theorem refuses_bind (reads : Reads first bytes (others ++ post) middle)
    (refuses : Refuses (next middle) others post error) : Refuses (first >>= next) (bytes ++ others) post error := by
  intro data cursor left
  rw [append_assoc] at left
  rw [bind_ok (reads data cursor left)]
  exact refuses data (cursor + bytes.length) (left_skip left rfl)

theorem refuses_first (refuses : Refuses first bytes (others ++ post) error) :
    Refuses (first >>= next) (bytes ++ others) post error := by
  intro data cursor left
  rw [append_assoc] at left
  change (match first data cursor with
    | .ok (value, after) => next value data after
    | .error fault => .error fault) = _
  rw [refuses data cursor left]
  rfl

-- Optional parts follow one another in the order of their markers, so that what
-- follows a part starts with a larger marker.
def Above (marker : UInt8) (post : Bytes) : Prop := ∀ byte ∈ post.head?, marker < byte

theorem above_nil : Above marker [] := fun _ listed => nomatch listed

variable {marker}

theorem above_cons {other : UInt8} (lower : marker < other) : Above marker (other :: rest) := by
  intro byte listed
  cases listed
  exact lower

theorem not_at_marker (above : Above marker post) (left : Left data cursor post)
    (inside : cursor < data.length) : ∃ byte, byteAt data cursor = (.ok byte : Checked E UInt8) ∧ byte ≠ marker := by
  cases post with
  | nil =>
    have length := left_length left
    simp only [length_nil] at length
    omega
  | cons byte rest => exact ⟨byte, byte_at_left left, (UInt8.ne_of_lt (above byte rfl)).symm⟩

-- Every reader of an optional part opens with this guard: too little input, or
-- another byte at the cursor, reads as an absent part and consumes nothing.
theorem guard_absent [Decidable short] (absent : R) (present : Checked E (R × Nat))
    (inside : ¬ short → cursor < data.length) (above : Above marker post) (left : Left data cursor post) :
    (if short then pure (absent, cursor)
      else byteAt data cursor >>= fun byte => if byte ≠ marker then pure (absent, cursor) else present) =
      .ok (absent, cursor) := by
  by_cases ended : short
  · rw [if_pos ended]
    rfl
  · obtain ⟨byte, found, apart⟩ := not_at_marker (E := E) above left (inside ended)
    rw [if_neg ended, found]
    exact if_pos apart

theorem reads_elsewhere {short : Bytes → Nat → Prop} [∀ data cursor, Decidable (short data cursor)]
    {present : Bytes → Nat → Checked E (R × Nat)} {absent : R}
    (guarded : ∀ data cursor, reader data cursor = if short data cursor then pure (absent, cursor) else byteAt data cursor >>= fun here => if here ≠ marker then pure (absent, cursor) else present data cursor)
    (apart : byte ≠ marker) : Reads reader [] (byte :: rest) absent := by
  intro data cursor left
  rw [guarded]
  split
  · rfl
  · rw [byte_at_left left, ok_bind, if_pos apart]
    rfl

def Marked (part : UInt8 × Bytes) : Prop := part.2 = [] ∨ ∃ rest, part.2 = part.1 :: rest

theorem above_parts {parts : List (UInt8 × Bytes)} (marked : ∀ part ∈ parts, Marked part)
    (lower : ∀ part ∈ parts, marker < part.1) (above : Above marker post) : Above marker (parts.flatMap Prod.snd ++ post) := by
  induction parts with
  | nil => exact above
  | cons part rest ih =>
    rw [flatMap_cons, append_assoc]
    rcases marked part mem_cons_self with absent | ⟨body, present⟩
    · rw [absent]
      exact ih (fun other listed => marked other (mem_cons_of_mem _ listed))
        fun other listed => lower other (mem_cons_of_mem _ listed)
    · rw [present]
      exact above_cons (lower part mem_cons_self)

structure Ordered (parts : List (UInt8 × Bytes)) : Prop where
  sorted : parts.Pairwise fun first second => first.1 < second.1
  marked : ∀ part ∈ parts, Marked part

theorem ordered_rest {rest : List (UInt8 × Bytes)} (ordered : Ordered (part :: rest)) : Ordered rest :=
  ⟨(pairwise_cons.mp ordered.sorted).2, fun other listed => ordered.marked other (mem_cons_of_mem _ listed)⟩

theorem ordered_above {rest : List (UInt8 × Bytes)} (ordered : Ordered (part :: rest)) :
    Above part.1 (rest.flatMap Prod.snd ++ []) :=
  above_parts (ordered_rest ordered).marked (pairwise_cons.mp ordered.sorted).1 (above_nil _)

theorem reads_part {rest : List (UInt8 × Bytes)} (ordered : Ordered (part :: rest))
    (reads : ∀ post, Above part.1 post → Reads first part.2 post middle)
    (continues : Ordered rest → Reads (next middle) (rest.flatMap Prod.snd) [] value) :
    Reads (first >>= next) ((part :: rest).flatMap Prod.snd) [] value :=
  reads_bind (reads _ (ordered_above ordered)) (continues (ordered_rest ordered))

theorem refuses_part {rest : List (UInt8 × Bytes)} (ordered : Ordered (part :: rest))
    (reads : ∀ post, Above part.1 post → Reads first part.2 post middle)
    (refuses : Ordered rest → Refuses (next middle) (rest.flatMap Prod.snd) [] error) :
    Refuses (first >>= next) ((part :: rest).flatMap Prod.snd) [] error :=
  refuses_bind (reads _ (ordered_above ordered)) (refuses (ordered_rest ordered))

def Gives (reader : Reader E R) (bytes : Bytes) (holds : R → Prop) : Prop :=
  ∀ data cursor, Left data cursor bytes → ∃ value after, reader data cursor = .ok (value, after) ∧ holds value

theorem gives_bind (reads : Reads first bytes post middle)
    (continues : Gives (next middle) post holds) : Gives (first >>= next) (bytes ++ post) holds := by
  intro data cursor left
  rw [bind_ok (reads data cursor left)]
  exact continues data _ (left_skip left rfl)

theorem gives_part {rest : List (UInt8 × Bytes)} (ordered : Ordered (part :: rest))
    (reads : ∀ post, Above part.1 post → Reads first part.2 post middle)
    (continues : Ordered rest → Gives (next middle) (rest.flatMap Prod.snd) holds) :
    Gives (first >>= next) ((part :: rest).flatMap Prod.snd) holds := by
  have above := ordered_above ordered
  rw [append_nil] at above
  exact gives_bind (reads _ above) (continues (ordered_rest ordered))

theorem gives_unmoved (reads : Reads first [] bytes middle)
    (continues : Gives (next middle) bytes holds) : Gives (first >>= next) bytes holds := gives_bind reads continues

theorem gives_past {short : Bytes → Nat → Prop} [∀ data cursor, Decidable (short data cursor)]
    {present : Bytes → Nat → Checked E (S × Nat)} {absent : S}
    (guarded : ∀ data cursor, first data cursor = if short data cursor then pure (absent, cursor) else byteAt data cursor >>= fun here => if here ≠ marker then pure (absent, cursor) else present data cursor)
    (apart : byte ≠ marker) (continues : Gives (next absent) (byte :: rest) holds) :
    Gives (first >>= next) (byte :: rest) holds :=
  gives_unmoved (reads_elsewhere guarded apart) continues

def optionalPart (marker : UInt8) (body : S → Bytes) : Option S → Bytes
  | none => []
  | some item => marker :: body item

theorem optional_part_marked {body : S → Bytes} {item : Option S} : Marked (marker, optionalPart marker body item) := by
  cases item with
  | none => exact .inl rfl
  | some item => exact .inr ⟨_, rfl⟩

-- A part of fixed length: absent when the input is too short for it or another
-- byte stands at the cursor.
def readFixed (marker : UInt8) (length : Nat) (parse : Bytes → Nat → Checked E R) : Reader E (Option R) :=
  fun data cursor => do
    if data.length < cursor + length then return (none, cursor)
    if (← byteAt data cursor) ≠ marker then return (none, cursor)
    return (some (← parse data cursor), cursor + length)

variable (length : Nat) (parse : Bytes → Nat → Checked E R) (marker)

theorem reads_absent (post : Bytes) (positive : 0 < length)
    (above : Above marker post) : Reads (readFixed marker length parse) [] post none := by
  intro data cursor left
  exact guard_absent none _ (by omega) above left

theorem at_fixed (body post data : Bytes) (cursor : Nat)
    (width : body.length + 1 = length) (left : Left data cursor (marker :: body ++ post)) :
    readFixed marker length parse data cursor = (do return (some (← parse data cursor), cursor + length)) := by
  have size := left_length left
  simp only [length_append, length_cons] at size
  have long : ¬ data.length < cursor + length := by omega
  have found : byteAt data cursor = (.ok marker : Checked E UInt8) := byte_at_left left
  simp only [readFixed, if_neg long, found]
  exact if_neg (fun apart => apart rfl)

theorem reads_fixed (body : S → Bytes) (carried : S → R)
    (item : Option S) (post : Bytes) (positive : 0 < length) (width : ∀ item, (body item).length + 1 = length)
    (parses : ∀ item data cursor, Left data (cursor + 1) (body item ++ post) → parse data cursor = .ok (carried item))
    (above : Above marker post) :
    Reads (readFixed marker length parse) (optionalPart marker body item) post (item.map carried) := by
  cases item with
  | none => exact reads_absent marker length parse post positive above
  | some item =>
    intro data cursor left
    rw [at_fixed marker length parse (body item) post data cursor (width item) left, parses item data cursor (left_next left)]
    simp only [optionalPart, length_cons, width item]
    rfl

theorem reads_fixed_exact (body : R → Bytes) (item : Option R)
    (post : Bytes) (positive : 0 < length) (width : ∀ item, (body item).length + 1 = length)
    (parses : ∀ item data cursor, Left data (cursor + 1) (body item ++ post) → parse data cursor = .ok item)
    (above : Above marker post) : Reads (readFixed marker length parse) (optionalPart marker body item) post item := by
  have read := reads_fixed marker length parse body id item post positive width parses above
  rwa [Option.map_id_fun, id_eq] at read

def readStrict (marker : UInt8) (length : Nat) (truncated : E) (parse : Bytes → Nat → Checked E R) : Reader E (Option R) :=
  fun data cursor => do
    if data.length ≤ cursor then return (none, cursor)
    if (← byteAt data cursor) ≠ marker then return (none, cursor)
    if data.length < cursor + length then refuse truncated
    return (some (← parse data cursor), cursor + length)

theorem reads_strict (truncated : E) (parse : Bytes → Nat → Checked E R) (body : R → Bytes) (item : Option R)
    (post : Bytes) (width : ∀ item, (body item).length + 1 = length)
    (parses : ∀ value ∈ item, ∀ data cursor, Left data (cursor + 1) (body value ++ post) → parse data cursor = .ok value)
    (above : Above marker post) : Reads (readStrict marker length truncated parse) (optionalPart marker body item) post item := by
  intro data cursor left
  have size := left_length left
  cases item with
  | none =>
    exact guard_absent none _ Nat.lt_of_not_le above left
  | some item =>
    simp only [optionalPart, length_append, length_cons] at size
    have sized := width item
    have unended : ¬ data.length ≤ cursor := by omega
    have long : ¬ data.length < cursor + length := by omega
    have found : byteAt data cursor = (.ok marker : Checked E UInt8) := byte_at_left left
    have parsed := parses item rfl data cursor (left_next left)
    simp only [readStrict, if_neg unended, if_neg long, found, parsed, optionalPart, length_cons, sized]
    exact if_neg (fun apart => apart rfl)

def readEach (width : Nat) (parse : Bytes → Nat → Checked E R) (data : Bytes) : Nat → Nat → Checked E (List R)
  | _, 0 => .ok []
  | start, count + 1 => do
    let item ← parse data start
    return item :: (← readEach width parse data (start + width) count)

theorem length_flat_map (items : List R) (sized : ∀ item, (encode item).length = width) :
    (items.flatMap encode).length = items.length * width := by
  induction items with
  | nil => exact (Nat.zero_mul width).symm
  | cons item rest ih => rw [flatMap_cons, length_append, sized, ih, length_cons, Nat.succ_mul, add_comm]

theorem read_each_left (sized : ∀ item, (encode item).length = width)
    (parses : ∀ item data start rest, Left data start (encode item ++ rest) → parse data start = .ok item)
    (items : List R) (data post : Bytes) (start : Nat) (left : Left data start (items.flatMap encode ++ post)) :
    readEach width parse data start items.length = .ok items := by
  induction items generalizing start with
  | nil => rfl
  | cons item rest ih =>
    rw [flatMap_cons, append_assoc] at left
    have first := parses item data start _ left
    have others := ih (start + width) (left_skip left (sized item))
    rw [length_cons, readEach, first]
    change (do return item :: (← readEach width parse data (start + width) rest.length)) = _
    rw [others]
    rfl

variable (encode)

-- A list whose length is capped, with its count in front; nothing when empty.
def countedPart (marker : UInt8) (head limit : Nat) (encode : S → Bytes) (items : List S) : Bytes :=
  if items.isEmpty then []
  else marker :: (leBytes head (min items.length limit) ++ (items.take (min items.length limit)).flatMap encode)

theorem counted_part_marked {marker : UInt8} {head limit : Nat} {encode : S → Bytes} {items : List S} :
    Marked (marker, countedPart marker head limit encode items) := by
  unfold countedPart
  split
  · exact .inl rfl
  · exact .inr ⟨_, rfl⟩

theorem is_empty_take {items : List S} (positive : 0 < limit) : (items.take limit).isEmpty = items.isEmpty := by
  cases items with
  | nil => rw [take_nil]
  | cons item rest =>
    obtain ⟨less, rfl⟩ := Nat.exists_eq_succ_of_ne_zero (Nat.ne_of_gt positive)
    rfl

theorem taken_positive (present : items.isEmpty = false) (positive : 0 < limit) : 0 < (items.take limit).length := by
  rw [length_pos_iff, ← isEmpty_eq_false_iff, is_empty_take limit positive, present]

theorem counted_part_take (head limit : Nat) (encode : S → Bytes) (items : List S) (positive : 0 < limit) :
    countedPart marker head limit encode (items.take limit) = countedPart marker head limit encode items := by
  have length : min (items.take limit).length limit = min items.length limit := by
    rw [length_take]
    omega
  have taken : (items.take limit).take (min items.length limit) = items.take (min items.length limit) := by
    rw [take_take]
    congr 1
    omega
  rw [countedPart, countedPart, is_empty_take limit positive, length, taken]

structure AtCounted (E : Type) (marker : UInt8) (head width : Nat) (encode : S → Bytes) (items : List S) (data post : Bytes)
    (cursor : Nat) : Prop where
  marker : byteAt data cursor = (.ok marker : Checked E UInt8)
  count : wordAt head data (cursor + 1) = (.ok items.length : Checked E Nat)
  body : Left data (cursor + (1 + head)) (items.flatMap encode ++ post)
  size : data.length = cursor + (1 + head) + items.length * width + post.length

theorem at_counted (head limit width : Nat) (encode : S → Bytes) (items : List S) (data post : Bytes) (cursor : Nat)
    (present : items.isEmpty = false) (fits : limit < 256 ^ head) (sized : ∀ item, (encode item).length = width)
    (left : Left data cursor (countedPart marker head limit encode items ++ post)) :
    AtCounted E marker head width encode (items.take limit) data post cursor ∧
      (countedPart marker head limit encode items).length = 1 + head + (items.take limit).length * width := by
  have capped : items.take (min items.length limit) = items.take limit := by
    rw [Nat.min_comm, ← take_eq_take_min]
  have written : countedPart marker head limit encode items =
      marker :: (leBytes head (items.take limit).length ++ (items.take limit).flatMap encode) := by
    rw [countedPart, present, if_neg Bool.false_ne_true, capped, length_take, Nat.min_comm]
  have small : (items.take limit).length < 256 ^ head := by
    rw [length_take]
    omega
  have bodyLength := length_flat_map width (items.take limit) sized
  rw [written] at left
  rw [cons_append, append_assoc] at left
  have rest := left_next left
  have body := left_skip rest (length_le_bytes head)
  have size := left_length body
  rw [length_append, bodyLength] at size
  refine ⟨⟨byte_at_left left, ?_, by rwa [add_assoc] at body, by omega⟩, ?_⟩
  · rw [word_at_left rest, Nat.mod_eq_of_lt small]
  · rw [written, length_cons, length_append, length_le_bytes, bodyLength]
    omega

def readCounted (marker : UInt8) (head : Nat) (declines : Nat → Bool) (width : Nat) (parse : Bytes → Nat → Checked E R) :
    Reader E (List R) :=
  fun data cursor => do
    if data.length < cursor + (1 + head) then return ([], cursor)
    if (← byteAt data cursor) ≠ marker then return ([], cursor)
    let count ← wordAt head data (cursor + 1)
    let body := cursor + (1 + head)
    if declines count || data.length < body + count * width then return ([], cursor)
    return (← readEach width parse data body count, body + count * width)

theorem reads_counted (head limit : Nat) (declines : Nat → Bool) (width : Nat) (parse : Bytes → Nat → Checked E R)
    (encode : R → Bytes) (items : List R) (post : Bytes) (fits : limit < 256 ^ head)
    (accepts : ∀ count, 0 < count → count ≤ limit → declines count = false) (positive : 0 < limit)
    (sized : ∀ item, (encode item).length = width)
    (parses : ∀ item data start rest, Left data start (encode item ++ rest) → parse data start = .ok item)
    (above : Above marker post) :
    Reads (readCounted marker head declines width parse) (countedPart marker head limit encode items) post
      (items.take limit) := by
  intro data cursor left
  cases present : items.isEmpty with
  | true =>
    have empty := isEmpty_iff.mp present
    subst empty
    rw [take_nil]
    exact guard_absent [] _ (by omega) above left
  | false =>
    obtain ⟨view, length⟩ := at_counted (E := E) marker head limit width encode items data post cursor present fits sized left
    have size := view.size
    have long : ¬ data.length < cursor + (1 + head) := by omega
    have whole : ¬ data.length < cursor + (1 + head) + (items.take limit).length * width := by omega
    have accepted := accepts _ (taken_positive items limit present positive) (length_take_le _ _)
    have read := read_each_left width parse sized parses _ _ _ _ view.body
    rw [length, ← add_assoc cursor]
    simp only [readCounted, if_neg long, view.marker, view.count, ok_bind, ne_eq, not_true_eq_false, if_false, accepted,
      whole, read, decide_false, Bool.or_self, Bool.false_eq_true]
    rfl

theorem ok_of_bind {first : Checked E S} {next : S → Checked E R} (ran : first >>= next = .ok value) :
    ∃ middle, first = .ok middle ∧ next middle = .ok value := by
  cases first with
  | ok middle => exact ⟨middle, rfl, ran⟩
  | error fault => cases ran

theorem past_check {wrong : Prop} [Decidable wrong] {next : Unit → Checked E R}
    (ran : (if wrong then refuse error >>= next else next ()) = .ok value) : ¬ wrong ∧ next () = .ok value := by
  by_cases failed : wrong
  · rw [if_pos failed] at ran
    cases ran
  · rw [if_neg failed] at ran
    exact ⟨failed, ran⟩

theorem read_of_bind (ran : (first >>= next) data cursor = .ok (value, after)) :
    ∃ middle between, first data cursor = .ok (middle, between) ∧ next middle data between = .ok (value, after) := by
  change (match first data cursor with
    | .ok (value, after) => next value data after
    | .error fault => .error fault) = _ at ran
  cases read : first data cursor with
  | error fault =>
    rw [read] at ran
    cases ran
  | ok result =>
    rw [read] at ran
    exact ⟨result.1, result.2, rfl, ran⟩

def Yields (reader : Reader E R) (holds : R → Prop) : Prop :=
  ∀ data cursor value after, reader data cursor = .ok (value, after) → holds value

theorem yields_any : Yields reader fun _ => True := fun _ _ _ _ _ => trivial

theorem yields_pure (value : R) (proof : holds value) : Yields (pure value : Reader E R) holds := by
  intro data cursor read after ran
  cases ran
  exact proof

theorem yields_bind {some : S → Prop} (yields : Yields first some)
    (continues : ∀ middle, some middle → Yields (next middle) holds) : Yields (first >>= next) holds := by
  intro data cursor value after ran
  obtain ⟨middle, between, read, rest⟩ := read_of_bind ran
  exact continues middle (yields data cursor middle between read) data between value after rest

theorem guard_passed {marker : UInt8} [Decidable short] {absent : R} {present : Checked E (R × Nat)}
    (ran : (if short then pure (absent, cursor) else byteAt data cursor >>= fun byte => if byte ≠ marker then pure (absent, cursor) else present) = .ok (value, after)) :
    (value = absent ∧ after = cursor ∧ (short ∨ ∃ byte, byteAt data cursor = (.ok byte : Checked E UInt8) ∧ byte ≠ marker)) ∨
      (¬ short ∧ byteAt data cursor = (.ok marker : Checked E UInt8) ∧ present = .ok (value, after)) := by
  by_cases ended : short
  · rw [if_pos ended] at ran
    cases ran
    exact .inl ⟨rfl, rfl, .inl ended⟩
  rw [if_neg ended] at ran
  obtain ⟨byte, found, rest⟩ := ok_of_bind ran
  by_cases apart : byte ≠ marker
  · rw [if_pos apart] at rest
    cases rest
    exact .inl ⟨rfl, rfl, .inr ⟨byte, found, apart⟩⟩
  · rw [if_neg apart] at rest
    rw [not_not.mp apart] at found
    exact .inr ⟨ended, found, rest⟩

theorem yields_fixed (holds : R → Prop) (parses : ∀ data cursor value, parse data cursor = .ok value → holds value) :
    Yields (readFixed marker length parse) fun item => ∀ value ∈ item, holds value := by
  intro data cursor item after ran
  rcases guard_passed ran with ⟨rfl, _⟩ | ⟨_, _, rest⟩
  · exact fun _ listed => nomatch listed
  · obtain ⟨value, parsed, returned⟩ := ok_of_bind rest
    cases returned
    intro other listed
    cases listed
    exact parses data cursor value parsed

theorem slice_ok {start : Nat} (sliced : slice data start (start + count) = (.ok bytes : Checked E Bytes)) :
    bytes = (data.drop start).take count ∧ bytes.length = count := by
  unfold slice at sliced
  split at sliced
  · rename_i inside
    cases sliced
    rw [Nat.add_sub_cancel_left]
    refine ⟨rfl, ?_⟩
    rw [length_take, length_drop]
    omega
  · cases sliced

theorem word_at_ok {start value : Nat} (read : wordAt count data start = (.ok value : Checked E Nat)) :
    value = fromLe ((data.drop start).take count) ∧ value < 256 ^ count := by
  obtain ⟨bytes, sliced, returned⟩ := ok_of_bind read
  cases returned
  obtain ⟨found, width⟩ := slice_ok sliced
  have below := from_le_lt bytes
  rw [width] at below
  rw [← found]
  exact ⟨rfl, below⟩

variable {parse}

theorem read_each_length (data : Bytes) (start : Nat) (items : List R)
    (read : readEach width parse data start count = .ok items) : items.length = count := by
  induction count generalizing start items with
  | zero =>
    cases read
    rfl
  | succ count ih =>
    obtain ⟨item, _, rest⟩ := ok_of_bind read
    obtain ⟨others, readOthers, returned⟩ := ok_of_bind rest
    cases returned
    rw [length_cons, ih _ others readOthers]

theorem yields_counted (head : Nat) (declines : Nat → Bool) (width : Nat) (parse : Bytes → Nat → Checked E R) :
    Yields (readCounted marker head declines width parse) fun items =>
      items = [] ∨ items.length < 256 ^ head ∧ declines items.length = false := by
  intro data cursor items after ran
  rcases guard_passed ran with ⟨empty, _⟩ | ⟨_, _, rest⟩
  · exact .inl empty
  obtain ⟨count, counted, rest⟩ := ok_of_bind rest
  by_cases declined : (declines count || decide (data.length < cursor + (1 + head) + count * width)) = true
  · simp only [declined, if_true] at rest
    cases rest
    exact .inl rfl
  simp only [declined, Bool.false_eq_true, if_false] at rest
  obtain ⟨read, readItems, returned⟩ := ok_of_bind rest
  cases returned
  have length := read_each_length width data _ items readItems
  rw [Bool.not_eq_true, Bool.or_eq_false_iff] at declined
  rw [length]
  exact .inr ⟨(word_at_ok counted).2, declined.1⟩

end Lib
