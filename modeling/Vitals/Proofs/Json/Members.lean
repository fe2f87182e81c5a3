/-
What is read of a row from an object of its members in any order, and from a list.

# Why the order does not matter

A reader of an object keeps a slot for each field. As long as everything that it meets
belongs to one row, its slots are those of that row at the keys that it has met
(`Row.slots`), whatever the order in which it met them. So a member of the row that is
new fills its slot (`readAt?_slots`), a key that the row does not have leaves the slots as
they are, and at the end all slots are filled if all keys were met.

# Why every key is needed once

A slot is only filled while it is empty. So whatever the members are, the keys of the
filled slots are those that were met, each as often as it was (`held_of_readMembers`), and
a row needs all slots filled, each of which is counted once (`keys_of_read`).
-/
import Vitals.Proofs.Json.Scalar

namespace Vitals.Json

open Grammar

-- ============================================================= texts

/-- A string, however it is spelt. -/
def IsText (text : String) (s : List Char) : Prop :=
  ∃ body, Spells text.toList body ∧ s = '"' :: (body ++ ['"'])

/-- A text that is an object of some entries, each a key and the text of its value. -/
def IsObjectOf (entries : List (String × List Char)) (s : List Char) : Prop :=
  ∃ members t,
    List.Forall₂ (fun entry member => IsText entry.1 member.1 ∧ member.2 = entry.2) entries members
    ∧ Object members t ∧ Spaced t s

/-- A text that is a list of some items. -/
def IsListOf (items : List (List Char)) (s : List Char) : Prop :=
  ∃ t, Listed items t ∧ Spaced t s

/-- Texts with a comma in front of each, the first one apart if there is nothing in front
of it. -/
def separated (first : Bool) : List (List Char) → List Char
  | [] => []
  | text :: texts => (if first then [] else [',']) ++ (text ++ separated false texts)

/-- Members joined by commas stand separated. -/
theorem intercalate_eq_separated (texts : List (List Char)) :
    [','].intercalate texts = separated true texts := by
  induction texts with
  | nil => rfl
  | cons text texts ih =>
      cases texts with
      | nil => simp [separated]
      | cons second texts =>
          rw [List.intercalate_cons_cons, ih]
          simp [separated]

/-- Blanks before an opening mark are passed over and nothing behind it is. -/
theorem skipBlanks_enclosed {opening : Char} (hopening : isBlank opening = false) (closing : Char)
    {before : List Char} (hbefore : Blanks before) (blanks : List Char)
    (texts : List (List Char)) (after : List Char) :
    skipBlanks (before ++ opening :: (blanks ++ ([','].intercalate texts ++ [closing])) ++ after)
      = opening :: (blanks ++ (separated true texts ++ closing :: after)) := by
  rw [List.append_assoc, skipBlanks_append hbefore, List.cons_append, skipBlanks_cons hopening,
    intercalate_eq_separated, List.append_assoc, List.append_assoc]
  rfl

/-- What follows a member ends every number. -/
theorem separated_stops (texts : List (List Char)) {close : Char} (hclose : Closing close)
    (rest : List Char) : Stops (separated false texts ++ close :: rest) := by
  cases texts with
  | nil => exact hclose.stops rest
  | cons text texts => exact (show Closing ',' from .inl rfl).stops _

-- ============================================================== rows

/-- The keys of a schema. -/
def Schema.names (schema : Schema) : List String := schema.map Field.name

/-- What is written of a row: its keys in order, each with the text of its scalar. -/
def Row.entries : (schema : Schema) → Row schema → List (String × List Char)
  | [], _ => []
  | field :: fields, (x, row) => (field.name, field.kind.write x) :: Row.entries fields row

/-- A row of scalars that are read back. -/
def Row.ReadsBack : (schema : Schema) → Row schema → Prop
  | [], _ => True
  | field :: fields, (x, row) => field.kind.ReadsBack x ∧ Row.ReadsBack fields row

variable {schema : Schema}

/-- The entries of a row are named as the schema says. -/
theorem keys_entries (row : Row schema) :
    (Row.entries schema row).map Prod.fst = schema.names := by
  induction schema with
  | nil => rfl
  | cons field fields ih => exact congrArg (field.name :: ·) (ih row.2)

/-- The members of a row are its entries, written. -/
theorem members_eq_map_entries (row : Row schema) :
    Row.members schema row = (Row.entries schema row).map member := by
  induction schema with
  | nil => rfl
  | cons field fields ih => exact congrArg (_ :: ·) (ih row.2)

theorem isText_writeText (text : String) : IsText text (writeText text) :=
  ⟨_, spells_escaped text.toList, rfl⟩

/-- Members with commas between them, and nothing else, are an object. -/
theorem isObjectOf_members (entries : List (String × List Char)) :
    IsObjectOf entries ('{' :: [','].intercalate (entries.map member) ++ ['}']) := by
  refine ⟨entries.map fun entry => (writeText entry.1, entry.2), _, ?_,
    ⟨[], entries.map member, by simp [Blanks], ?_, rfl⟩, spaced_self _⟩
  · rw [List.forall₂_map_right_iff, List.forall₂_same]
    exact fun entry _ => ⟨isText_writeText entry.1, rfl⟩
  · rw [List.forall₂_map_left_iff, List.forall₂_map_right_iff, List.forall₂_same]
    exact fun entry _ => ⟨_, _, spaced_self _, spaced_self _, rfl⟩

/-- A row is written as an object of its entries. -/
theorem isObjectOf_write (row : Row schema) :
    IsObjectOf (Row.entries schema row) (Row.write schema row) := by
  rw [Row.write, members_eq_map_entries]
  exact isObjectOf_members _

/-- Every entry of a row that is read back is a JSON value. -/
theorem value_of_mem_entries {row : Row schema} (h : Row.ReadsBack schema row) :
    ∀ entry ∈ Row.entries schema row, Grammar.Value entry.2 := by
  induction schema with
  | nil =>
      intro entry hentry
      cases hentry
  | cons field fields ih =>
      obtain ⟨x, row⟩ := row
      exact List.forall_mem_cons.mpr ⟨Kind.value_write h.1.finite, ih h.2⟩

-- ============================================================= slots

/-- The slots of a row that some keys fill. -/
def Row.slots (keys : List String) : (schema : Schema) → Row schema → Slots schema
  | [], _ => ()
  | field :: fields, (x, row) =>
      (if field.name ∈ keys then some x else none, Row.slots keys fields row)

theorem slots_nil (row : Row schema) : Row.slots [] schema row = Slots.none schema := by
  induction schema with
  | nil => rfl
  | cons field fields ih => exact congrArg (none, ·) (ih row.2)

/-- A key the schema does not name fills no slot. -/
theorem slots_cons_of_notMem {key : String} (h : key ∉ schema.names) (keys : List String)
    (row : Row schema) : Row.slots (key :: keys) schema row = Row.slots keys schema row := by
  induction schema with
  | nil => rfl
  | cons field fields ih =>
      obtain ⟨x, row⟩ := row
      have hother : field.name ≠ key := (List.ne_of_not_mem_cons h).symm
      have hiff : field.name ∈ key :: keys ↔ field.name ∈ keys := by
        rw [List.mem_cons, or_iff_right hother]
      exact congrArg₂ Prod.mk (if_congr hiff rfl rfl) (ih (List.not_mem_of_not_mem_cons h) row)

/-- When every name has been met, the slots make the row. -/
theorem row?_slots {keys : List String} (h : ∀ name ∈ schema.names, name ∈ keys)
    (row : Row schema) : Slots.row? schema (Row.slots keys schema row) = some row := by
  induction schema with
  | nil => rfl
  | cons field fields ih =>
      obtain ⟨x, row⟩ := row
      obtain ⟨hhead, hfields⟩ := List.forall_mem_cons.mp h
      rw [Row.slots, if_pos hhead, Slots.row?, ih hfields]
      rfl

/-- Only a key the schema does not name finds no slot. -/
theorem readAt?_eq_none_iff {slots : Slots schema} {key : String} {s : List Char} :
    Slots.readAt? schema slots key s = none ↔ key ∉ schema.names := by
  induction schema with
  | nil => exact iff_of_true rfl List.not_mem_nil
  | cons field fields ih =>
      obtain ⟨slot, slots⟩ := slots
      have hnames : key ∈ Schema.names (field :: fields)
          ↔ key = field.name ∨ key ∈ Schema.names fields := List.mem_cons
      rw [Slots.readAt?, hnames, not_or]
      split
      · next hkey => exact iff_of_false nofun fun h => h.1 hkey.symm
      · next hkey => rw [Option.map_eq_none_iff, ih, and_iff_right (Ne.symm hkey)]

/-- The scalar of a row fills the slot of its key, if it is empty. -/
theorem readAt?_slots (hnodup : schema.names.Nodup) {row : Row schema}
    (hrow : Row.ReadsBack schema row) {entry : String × List Char}
    (hentry : entry ∈ Row.entries schema row) {keys : List String} (hnew : entry.1 ∉ keys)
    {value : List Char} (hvalue : Spaced entry.2 value) {rest : List Char} (hrest : Stops rest) :
    ∃ r, Slots.readAt? schema (Row.slots keys schema row) entry.1 (':' :: (value ++ rest))
        = some (.ok (Row.slots (entry.1 :: keys) schema row, r))
      ∧ skipBlanks r = skipBlanks rest := by
  induction schema with
  | nil => cases hentry
  | cons field fields ih =>
      obtain ⟨x, row⟩ := row
      obtain ⟨hx, hrow⟩ := hrow
      obtain ⟨hfresh, hnodup⟩ : field.name ∉ Schema.names fields ∧ (Schema.names fields).Nodup :=
        List.nodup_cons.mp hnodup
      rcases List.mem_cons.mp hentry with rfl | hentry
      · obtain ⟨r, hread, hblanks⟩ := hx.spaced hvalue hrest
        refine ⟨r, ?_, hblanks⟩
        simp only [Row.slots, Slots.readAt?, if_true, if_neg hnew, Option.isSome_none,
          Bool.false_eq_true, if_false, skipColon_cons, hread, bind, Except.bind,
          List.mem_cons_self, slots_cons_of_notMem hfresh]
        rfl
      · obtain ⟨r, hread, hblanks⟩ := ih hnodup hrow hentry
        refine ⟨r, ?_, hblanks⟩
        -- a later slot is filled, since no two fields share a name
        have hother : field.name ≠ entry.1 := by
          intro heq
          apply hfresh
          rw [heq, ← keys_entries row]
          exact List.mem_map_of_mem hentry
        have hiff : field.name ∈ entry.1 :: keys ↔ field.name ∈ keys := by
          rw [List.mem_cons, or_iff_right hother]
        rw [Row.slots, Slots.readAt?, if_neg hother, hread, Row.slots]
        simp only [hiff]
        rfl

/-- The keys of the slots that are filled. -/
def Slots.held : (schema : Schema) → Slots schema → List String
  | [], _ => []
  | field :: fields, (slot, slots) =>
      if slot.isSome then field.name :: Slots.held fields slots else Slots.held fields slots

theorem held_none : Slots.held schema (Slots.none schema) = [] := by
  induction schema with
  | nil => rfl
  | cons field fields ih => exact ih

/-- Slots that make a row hold every name. -/
theorem held_of_row? {slots : Slots schema} {row : Row schema}
    (h : Slots.row? schema slots = some row) : Slots.held schema slots = schema.names := by
  induction schema with
  | nil => rfl
  | cons field fields ih =>
      obtain ⟨slot, slots⟩ := slots
      cases slot with
      | none => cases h
      | some x =>
          obtain ⟨row, hrow, -⟩ := Option.map_eq_some_iff.mp h
          exact congrArg (field.name :: ·) (ih hrow)

/-- A value that is read at a key fills one slot more, that of the key. -/
theorem held_of_readAt? {slots slots' : Slots schema} {key : String} {s r : List Char}
    (h : Slots.readAt? schema slots key s = some (.ok (slots', r))) :
    key ∈ schema.names ∧ (Slots.held schema slots').Perm (key :: Slots.held schema slots)
      ∧ ∃ (k : Kind) (x : k.Carrier) (value : List Char),
        skipColon s = .ok value ∧ k.read value = .ok (x, r) := by
  induction schema with
  | nil => cases h
  | cons field fields ih =>
      obtain ⟨slot, slots⟩ := slots
      rw [Slots.readAt?] at h
      split at h
      · next hkey =>
          subst hkey
          -- a slot that is filled already takes no second value
          cases slot with
          | some x => cases h
          | none =>
              have h := Option.some.inj h
              rw [if_neg (by simp)] at h
              obtain ⟨value, hcolon, h⟩ := Text.exists_of_bind_eq_ok h
              obtain ⟨⟨x, s⟩, hread, h⟩ := Text.exists_of_bind_eq_ok h
              cases h
              exact ⟨List.mem_cons_self .., .refl _, field.kind, x, value, hcolon, hread⟩
      · obtain ⟨result, hresult, h⟩ := Option.map_eq_some_iff.mp h
        cases result with
        | error e => cases h
        | ok read =>
            cases h
            -- the names behind this one gain the key, in whatever place
            obtain ⟨hmem, hperm, hread⟩ := ih hresult
            refine ⟨List.mem_cons_of_mem _ hmem, ?_, hread⟩
            rw [Slots.held, Slots.held]
            split
            · exact (hperm.cons _).trans (.swap _ _ _)
            · exact hperm

-- ============================================================ members

/-- The slots with the value of a key, which is passed over if the schema does not have
it. -/
def Slots.readValue (schema : Schema) (slots : Slots schema) (key : String) (s : List Char) :
    Except Fault (Slots schema × List Char) :=
  match Slots.readAt? schema slots key s with
  | some result => result
  | Option.none => do
      let s ← skipColon s
      let s ← skipValue s
      return (slots, s)

theorem readAt?_blanks {blanks : List Char} (h : Blanks blanks) (slots : Slots schema)
    (key : String) (s : List Char) :
    Slots.readAt? schema slots key (blanks ++ ':' :: s)
      = Slots.readAt? schema slots key (':' :: s) := by
  induction schema with
  | nil => rfl
  | cons field fields ih =>
      obtain ⟨slot, slots⟩ := slots
      rw [Slots.readAt?, Slots.readAt?, skipColon_spaced h, skipColon_cons, ih]

theorem readValue_blanks {blanks : List Char} (h : Blanks blanks) (slots : Slots schema)
    (key : String) (s : List Char) :
    Slots.readValue schema slots key (blanks ++ ':' :: s)
      = Slots.readValue schema slots key (':' :: s) := by
  rw [Slots.readValue, Slots.readValue, readAt?_blanks h, skipColon_spaced h, skipColon_cons]

/-- A spelled key is followed by the value read for it. -/
theorem readMember_of_spells (slots : Slots schema) {key : String} {body : List Char}
    (h : Spells key.toList body) (s : List Char) :
    Slots.readMember schema slots ((body ++ ['"']) ++ s) = Slots.readValue schema slots key s := by
  unfold Slots.readMember
  rw [readText_of_spells h]
  rfl

/-- A closing brace ends the members. -/
theorem readMembers_close (fuel : Nat) (first : Bool) (slots : Slots schema) (rest : List Char) :
    Slots.readMembers schema (fuel + 1) first slots ('}' :: rest) = .ok (slots, rest) := by
  have hclose : isBlank '}' = false := rfl
  rw [Slots.readMembers, skipBlanks_cons hclose]
  rfl

theorem readMembers_skipBlanks (fuel : Nat) (first : Bool) (slots : Slots schema)
    (s : List Char) : Slots.readMembers schema fuel first slots (skipBlanks s)
      = Slots.readMembers schema fuel first slots s := by
  cases fuel with
  | zero => rfl
  | succ fuel => rw [Slots.readMembers, Slots.readMembers, skipBlanks_skipBlanks]

/-- The slots with the members of an object from the key of one to its end. -/
def Slots.readKeyed (schema : Schema) (fuel : Nat) (slots : Slots schema) (s : List Char) :
    Except Fault (Slots schema × List Char) :=
  match skipBlanks s with
  | '"' :: s => do
      let (slots, s) ← Slots.readMember schema slots s
      Slots.readMembers schema fuel false slots s
  | [] => .error .truncated
  | _ => .error .malformed

theorem readMembers_comma (fuel : Nat) (slots : Slots schema) (s : List Char) :
    Slots.readMembers schema (fuel + 1) false slots (',' :: s)
      = Slots.readKeyed schema fuel slots s := rfl

/-- The first key needs no comma. -/
theorem readMembers_quote (fuel : Nat) (slots : Slots schema) {s t : List Char}
    (h : skipBlanks s = '"' :: t) : Slots.readMembers schema (fuel + 1) true slots s
      = Slots.readKeyed schema fuel slots s := by
  rw [Slots.readMembers, Slots.readKeyed, h]
  rfl

/-- A member is read as its value, and the reader goes on behind it. -/
theorem readMembers_cons (fuel : Nat) (first : Bool) (slots : Slots schema) {key : String}
    {text k : List Char} (htext : IsText key text) (hk : Spaced text k) (s : List Char) :
    Slots.readMembers schema (fuel + 1) first slots
        ((if first then [] else [',']) ++ (k ++ ':' :: s))
      = Slots.readValue schema slots key (':' :: s) >>= fun (slots, s) =>
          Slots.readMembers schema fuel false slots s := by
  obtain ⟨body, hbody, rfl⟩ := htext
  obtain ⟨before, after, hbefore, hafter, rfl⟩ := hk
  have hquote : isBlank '"' = false := rfl
  have hopens : skipBlanks ((before ++ '"' :: (body ++ ['"']) ++ after) ++ ':' :: s)
      = '"' :: ((body ++ ['"']) ++ (after ++ ':' :: s)) := by
    rw [List.append_assoc, List.append_assoc, skipBlanks_append hbefore, List.cons_append,
      skipBlanks_cons hquote]
  have hkeyed : Slots.readMembers schema (fuel + 1) first slots ((if first then [] else [','])
        ++ ((before ++ '"' :: (body ++ ['"']) ++ after) ++ ':' :: s))
      = Slots.readKeyed schema fuel slots
        ((before ++ '"' :: (body ++ ['"']) ++ after) ++ ':' :: s) := by
    cases first with
    | true => exact readMembers_quote fuel slots hopens
    | false => exact readMembers_comma fuel slots _
  rw [hkeyed, Slots.readKeyed, hopens, ← readValue_blanks hafter,
    ← readMember_of_spells slots hbody]
  rfl

/-- An entry that a row is read with: one of its own, or one with a key that the schema
does not have. -/
def Row.Fits (schema : Schema) (row : Row schema) (entry : String × List Char) : Prop :=
  entry ∈ Row.entries schema row ∨ entry.1 ∉ schema.names ∧ Grammar.Value entry.2

/-- A value that fits its row fills the slot of its key. -/
theorem readValue_slots (hnodup : schema.names.Nodup) {row : Row schema}
    (hrow : Row.ReadsBack schema row) {entry : String × List Char}
    (hentry : Row.Fits schema row entry) {keys : List String}
    (hnew : entry.1 ∈ schema.names → entry.1 ∉ keys) {value : List Char}
    (hvalue : Spaced entry.2 value) {rest : List Char} (hrest : Stops rest) :
    ∃ r, Slots.readValue schema (Row.slots keys schema row) entry.1 (':' :: (value ++ rest))
        = .ok (Row.slots (entry.1 :: keys) schema row, r)
      ∧ skipBlanks r = skipBlanks rest := by
  rcases hentry with hown | ⟨hunknown, hskips⟩
  · have hname : entry.1 ∈ schema.names := by
      rw [← keys_entries row]
      exact List.mem_map_of_mem hown
    obtain ⟨r, hread, hblanks⟩ := readAt?_slots hnodup hrow hown (hnew hname) hvalue hrest
    refine ⟨r, ?_, hblanks⟩
    rw [Slots.readValue, hread]
  · obtain ⟨r, hskip, hblanks⟩ := hskips.skipValue hvalue hrest
    refine ⟨r, ?_, hblanks⟩
    rw [Slots.readValue, readAt?_eq_none_iff.mpr hunknown, slots_cons_of_notMem hunknown]
    simp only [skipColon_cons, hskip, bind, Except.bind]
    rfl

/-- A member that is a key and a value, however the key is spelt. -/
def IsMember (entry : String × List Char) (s : List Char) : Prop :=
  ∃ key, IsText entry.1 key ∧ Member (key, entry.2) s

/-- Texts and values set around colons are the members of their entries. -/
theorem forall₂_isMember {entries : List (String × List Char)}
    {members : List (List Char × List Char)} {texts : List (List Char)}
    (hentries : List.Forall₂ (fun entry member => IsText entry.1 member.1 ∧ member.2 = entry.2)
      entries members) (htexts : List.Forall₂ Member members texts) :
    List.Forall₂ IsMember entries texts := by
  induction hentries generalizing texts with
  | nil =>
      cases htexts
      exact .nil
  | cons hentry _ ih =>
      obtain ⟨hkey, hvalue⟩ := hentry
      cases htexts with
      | cons htext htexts => exact .cons ⟨_, hkey, hvalue ▸ htext⟩ (ih htexts)

/-- Entries that a row is read with fill the slots of their keys, in whatever order they
come, if no key of the schema comes twice. -/
theorem readMembers_slots (hnodup : schema.names.Nodup) {row : Row schema}
    (hrow : Row.ReadsBack schema row) {entries : List (String × List Char)}
    {texts : List (List Char)} (htexts : List.Forall₂ IsMember entries texts)
    (hfits : ∀ entry ∈ entries, Row.Fits schema row entry) {keys : List String}
    (hnew : ∀ entry ∈ entries, entry.1 ∈ schema.names → entry.1 ∉ keys)
    (hapart : entries.Pairwise fun a b => a.1 ∈ schema.names → a.1 ≠ b.1) {fuel : Nat}
    (hfuel : texts.length < fuel) (first : Bool) (rest : List Char) :
    Slots.readMembers schema fuel first (Row.slots keys schema row)
        (separated first texts ++ '}' :: rest)
      = .ok (Row.slots ((entries.map Prod.fst).reverse ++ keys) schema row, rest) := by
  induction htexts generalizing keys fuel first with
  | nil =>
      obtain ⟨fuel, rfl⟩ : ∃ n, fuel = n + 1 := ⟨fuel - 1, by omega⟩
      exact readMembers_close fuel first _ rest
  | @cons entry text entries texts htext htexts ih =>
      rw [List.length_cons] at hfuel
      obtain ⟨fuel, rfl⟩ : ∃ n, fuel = n + 1 := ⟨fuel - 1, by omega⟩
      obtain ⟨hentry, hfits⟩ := List.forall_mem_cons.mp hfits
      obtain ⟨hfresh, hnew⟩ := List.forall_mem_cons.mp hnew
      obtain ⟨hothers, hapart⟩ := List.pairwise_cons.mp hapart
      obtain ⟨key, hkey, k, value, hk, hvalue, rfl⟩ := htext
      have hstops := separated_stops texts (.inr (.inr rfl) : Closing '}') rest
      obtain ⟨r, hread, hblanks⟩ := readValue_slots hnodup hrow hentry hfresh hvalue hstops
      -- the key that was met is new to what is still to come
      have hmore : ∀ other ∈ entries, other.1 ∈ schema.names → other.1 ∉ entry.1 :: keys := by
        intro other hother hname hmem
        rcases List.mem_cons.mp hmem with heq | hmem
        · exact hothers other hother (heq ▸ hname) heq.symm
        · exact hnew other hother hname hmem
      have hrest := ih hfits hmore hapart (by omega : texts.length < fuel) false
      rw [separated, List.append_assoc, List.append_assoc, List.append_assoc, List.cons_append,
        readMembers_cons fuel first _ hkey hk, hread]
      show Slots.readMembers schema fuel false (Row.slots (entry.1 :: keys) schema row) r = _
      rw [← readMembers_skipBlanks, hblanks, readMembers_skipBlanks, hrest, List.map_cons,
        List.reverse_cons, List.append_assoc]
      rfl

-- ============================================================= counts

/-- A value fills a slot if its key has one, and nothing but that value is read. -/
theorem held_of_readValue {slots slots' : Slots schema} {entry : String × List Char}
    (hskips : Grammar.Value entry.2) {value : List Char} (hvalue : Spaced entry.2 value)
    {rest r : List Char} (hrest : Stops rest)
    (h : Slots.readValue schema slots entry.1 (':' :: (value ++ rest)) = .ok (slots', r)) :
    (Slots.held schema slots').Perm
        ([entry.1].filter (· ∈ schema.names) ++ Slots.held schema slots)
      ∧ skipBlanks r = skipBlanks rest := by
  obtain ⟨behind, hskip, hblanks⟩ := hskips.skipValue hvalue hrest
  unfold Slots.readValue at h
  split at h
  · next result hresult =>
      subst h
      obtain ⟨hname, hperm, k, x, s, hs, hread⟩ := held_of_readAt? hresult
      rw [skipColon_cons] at hs
      cases hs
      -- what is read could be passed over as well, so it ends where the value does
      have hend : skipValue (value ++ rest) = .ok r := skipWithin_of_read hread _
      rw [hskip] at hend
      cases hend
      rw [List.filter_singleton, decide_eq_true hname]
      exact ⟨hperm, hblanks⟩
  · next hnone =>
      simp only [skipColon_cons, hskip, bind, Except.bind, pure, Except.pure] at h
      cases h
      rw [List.filter_singleton, decide_eq_false (readAt?_eq_none_iff.mp hnone)]
      exact ⟨.refl _, hblanks⟩

/-- The keys of the slots that are filled in the end are those of the schema that were met,
each as often as it was. -/
theorem held_of_readMembers {entries : List (String × List Char)} {texts : List (List Char)}
    (htexts : List.Forall₂ IsMember entries texts)
    (hvalues : ∀ entry ∈ entries, Grammar.Value entry.2) {fuel : Nat} {first : Bool}
    {slots slots' : Slots schema} {rest r : List Char}
    (h : Slots.readMembers schema fuel first slots (separated first texts ++ '}' :: rest)
      = .ok (slots', r)) :
    (Slots.held schema slots').Perm
      ((entries.map Prod.fst).filter (· ∈ schema.names) ++ Slots.held schema slots) := by
  induction htexts generalizing fuel first slots with
  | nil =>
      cases fuel with
      | zero => cases h
      | succ fuel =>
          rw [separated, List.nil_append, readMembers_close] at h
          cases h
          exact .refl _
  | @cons entry text entries texts htext htexts ih =>
      cases fuel with
      | zero => cases h
      | succ fuel =>
          obtain ⟨hskips, hvalues⟩ := List.forall_mem_cons.mp hvalues
          obtain ⟨key, hkey, k, value, hk, hvalue, rfl⟩ := htext
          have hstops := separated_stops texts (.inr (.inr rfl) : Closing '}') rest
          rw [separated, List.append_assoc, List.append_assoc, List.append_assoc,
            List.cons_append, readMembers_cons fuel first _ hkey hk] at h
          obtain ⟨⟨filled, behind⟩, hread, hmore⟩ := Text.exists_of_bind_eq_ok h
          obtain ⟨hperm, hblanks⟩ := held_of_readValue hskips hvalue hstops hread
          dsimp only at hmore
          rw [← readMembers_skipBlanks, hblanks, readMembers_skipBlanks] at hmore
          -- the key that was met is held before those that follow
          have hone : (entry :: entries).map Prod.fst = [entry.1] ++ entries.map Prod.fst := rfl
          rw [hone, List.filter_append, List.append_assoc]
          have hfilled := hperm.append_left ((entries.map Prod.fst).filter (· ∈ schema.names))
          exact (ih hvalues hmore).trans (hfilled.trans (List.perm_append_comm_assoc ..))

-- ============================================================== items

theorem read_skipBlanks (k : Kind) (s : List Char) : k.read (skipBlanks s) = k.read s := by
  cases k <;> simp only [Kind.read, readNumeric, skipBlanks_skipBlanks]

theorem readItems_skipBlanks (first : Bool) (s : List Char) :
    Row.readItems schema first (skipBlanks s) = Row.readItems schema first s := by
  cases schema <;> simp only [Row.readItems, skipBlanks_skipBlanks]

/-- An item is read as the scalar of its field, and the reader goes on behind it. -/
theorem readItems_cons {field : Field} {fields : Schema} (first : Bool) {s r : List Char}
    {x : field.kind.Carrier} (h : field.kind.read s = .ok (x, r)) :
    Row.readItems (field :: fields) first ((if first then [] else [',']) ++ s)
      = Row.readItems fields false r >>= fun (row, s) => .ok ((x, row), s) := by
  -- a scalar does not open with the bracket that closes the list
  obtain ⟨c, t, hopens, hc⟩ := opens_skipWithin (skipWithin_of_read h 0)
  have hread : field.kind.read (c :: t) = .ok (x, r) := by
    rw [← hopens, read_skipBlanks]
    exact h
  have hcomma : isBlank ',' = false := rfl
  cases first with
  | true =>
      show Row.readItems (field :: fields) true s = _
      rw [Row.readItems.eq_def]
      dsimp only
      rw [hopens]
      split
      · next heq => cases heq
      · next heq => exact absurd (List.cons.inj heq).1 hc
      · show (field.kind.read (c :: t) >>= _) = _
        rw [hread]
        rfl
      · next hfirst _ => exact absurd hfirst (by decide)
      · next hfirst _ _ _ => exact absurd hfirst (by decide)
  | false =>
      show Row.readItems (field :: fields) false (',' :: s) = _
      rw [Row.readItems.eq_def]
      dsimp only
      rw [skipBlanks_cons hcomma]
      split
      · next heq => cases heq
      · next heq => cases heq
      · next hfirst _ _ => exact absurd hfirst (by decide)
      · next heq =>
          cases heq
          rw [hopens]
          split
          · next heq => exact absurd (List.cons.inj heq).1 hc
          · show (field.kind.read (c :: t) >>= _) = _
            rw [hread]
            rfl
      · next hother => exact absurd rfl (hother s)

/-- Items that are the scalars of a row are read as it. -/
theorem readItems_separated {row : Row schema} (hrow : Row.ReadsBack schema row)
    {texts : List (List Char)}
    (htexts : List.Forall₂ Spaced ((Row.entries schema row).map Prod.snd) texts) (first : Bool)
    (rest : List Char) :
    Row.readItems schema first (separated first texts ++ ']' :: rest) = .ok (row, rest) := by
  induction schema generalizing texts first with
  | nil =>
      cases htexts
      have hclose : isBlank ']' = false := rfl
      rw [separated, List.nil_append, Row.readItems, skipBlanks_cons hclose]
      rfl
  | cons field fields ih =>
      obtain ⟨x, row⟩ := row
      obtain ⟨hx, hrow⟩ := hrow
      rcases htexts with _ | ⟨htext, htexts⟩
      next text texts =>
        have hstops := separated_stops texts (.inr (.inl rfl) : Closing ']') rest
        obtain ⟨r, hread, hblanks⟩ := hx.spaced htext hstops
        rw [separated, List.append_assoc, List.append_assoc, readItems_cons first hread,
          ← readItems_skipBlanks, hblanks, readItems_skipBlanks, ih hrow htexts]
        rfl

-- =========================================================== reading

/-- A row that is followed by blanks only is read. -/
theorem read_of_readFrom {s blanks : List Char} {row : Row schema} (hblanks : Blanks blanks)
    (h : Row.readFrom schema s = .ok (row, blanks)) : Row.read schema s = .ok row := by
  have hend : skipBlanks blanks = [] := by
    rw [← List.append_nil blanks, skipBlanks_append hblanks]
    rfl
  rw [Row.read, h]
  exact if_pos hend

/-- A text that is an object of some entries is read as the texts of its members, with
blanks in front of them and behind the brace that closes them. -/
theorem exists_of_isObjectOf (schema : Schema) {entries : List (String × List Char)}
    {s : List Char} (h : IsObjectOf entries s) :
    ∃ texts blanks fuel,
      List.Forall₂ IsMember entries texts ∧ Blanks blanks ∧ texts.length < fuel
      ∧ Row.readFrom schema s
        = Slots.readMembers schema fuel true (Slots.none schema)
            (separated true texts ++ '}' :: blanks) >>= fun (slots, s) =>
          match Slots.row? schema slots with
          | some row => .ok (row, s)
          | none => .error .mismatch := by
  obtain ⟨members, t, hentries, ⟨blanks, texts, hblanks, htexts, rfl⟩, hspaced⟩ := h
  obtain ⟨before, after, hbefore, hafter, rfl⟩ := hspaced
  have hbrace : isBlank '{' = false := rfl
  have hopens := skipBlanks_enclosed hbrace '}' hbefore blanks texts after
  refine ⟨texts, after, (blanks ++ (separated true texts ++ '}' :: after)).length + 1,
    forall₂_isMember hentries htexts, hafter, ?_, ?_⟩
  · have hlen := length_le_length_intercalate ',' texts
    rw [intercalate_eq_separated] at hlen
    simp only [List.length_append, List.length_cons]
    omega
  · rw [Row.readFrom, hopens]
    show (Slots.readMembers schema _ true _ (blanks ++ _) >>= _) = _
    rw [← readMembers_skipBlanks, skipBlanks_append hblanks, readMembers_skipBlanks]
    rfl

/-- Of the entries of a row and others whose keys it does not have, no two share a key of the
schema, in whatever order they come. -/
theorem pairwise_apart (hnodup : schema.names.Nodup) (row : Row schema)
    {others entries : List (String × List Char)}
    (hothers : ∀ other ∈ others, other.1 ∉ schema.names)
    (hperm : entries.Perm (Row.entries schema row ++ others)) :
    entries.Pairwise fun a b => a.1 ∈ schema.names → a.1 ≠ b.1 := by
  rw [← keys_entries row, List.Nodup, List.pairwise_map] at hnodup
  rw [hperm.pairwise_iff, List.pairwise_append]
  · refine ⟨?_, ?_, ?_⟩
    · apply hnodup.imp
      intro a b hne _
      exact hne
    · apply List.pairwise_of_forall_mem_list
      intro a ha b _ hname
      exact absurd hname (hothers a ha)
    · intro a _ b hb hname heq
      exact hothers b hb (heq ▸ hname)
  · intro a b hapart hname heq
    exact hapart (heq ▸ hname) heq.symm

/-- A row is read from an object of its entries and of others whose keys it does not have,
in whatever order. -/
theorem read_of_isObjectOf (hnodup : schema.names.Nodup) {row : Row schema}
    (hrow : Row.ReadsBack schema row) {others entries : List (String × List Char)}
    (hothers : ∀ other ∈ others, other.1 ∉ schema.names ∧ Grammar.Value other.2)
    (hperm : entries.Perm (Row.entries schema row ++ others)) {s : List Char}
    (h : IsObjectOf entries s) : Row.read schema s = .ok row := by
  obtain ⟨texts, blanks, fuel, htexts, hblanks, hfuel, hread⟩ := exists_of_isObjectOf schema h
  have hfits : ∀ entry ∈ entries, Row.Fits schema row entry := by
    intro entry hentry
    rcases List.mem_append.mp (hperm.mem_iff.mp hentry) with hown | hother
    · exact .inl hown
    · exact .inr (hothers entry hother)
  have hapart := pairwise_apart hnodup row (fun other hother => (hothers other hother).1) hperm
  -- every name of the schema was met, so no slot is left empty
  have hall : ∀ name ∈ schema.names, name ∈ (entries.map Prod.fst).reverse ++ [] := by
    intro name hname
    rw [← keys_entries row] at hname
    rw [List.append_nil, List.mem_reverse, (hperm.map Prod.fst).mem_iff, List.map_append]
    exact List.mem_append_left _ hname
  have hnew : ∀ entry ∈ entries, entry.1 ∈ schema.names → entry.1 ∉ ([] : List String) :=
    fun _ _ _ => List.not_mem_nil
  have hslots := readMembers_slots hnodup hrow htexts hfits hnew hapart hfuel true blanks
  apply read_of_readFrom hblanks
  rw [hread, ← slots_nil row, hslots]
  show (match Slots.row? schema (Row.slots _ schema row) with
    | some row => Except.ok (row, blanks)
    | none => Except.error Fault.mismatch) = _
  rw [row?_slots hall]

/-- A row is read from a list of its scalars in order. -/
theorem read_of_isListOf {row : Row schema} (hrow : Row.ReadsBack schema row) {s : List Char}
    (h : IsListOf ((Row.entries schema row).map Prod.snd) s) : Row.read schema s = .ok row := by
  obtain ⟨t, ⟨blanks, texts, hblanks, htexts, rfl⟩, before, after, hbefore, hafter, rfl⟩ := h
  have hbracket : isBlank '[' = false := rfl
  have hopens := skipBlanks_enclosed hbracket ']' hbefore blanks texts after
  apply read_of_readFrom hafter
  rw [Row.readFrom, hopens]
  show Row.readItems schema true (blanks ++ _) = _
  rw [← readItems_skipBlanks, skipBlanks_append hblanks, readItems_skipBlanks]
  exact readItems_separated hrow htexts true after

/-- A row is read from an object only if the keys of the schema are among its keys, and each
of them once. -/
theorem keys_of_read {entries : List (String × List Char)}
    (hvalues : ∀ entry ∈ entries, Grammar.Value entry.2) {s : List Char}
    (h : IsObjectOf entries s) {row : Row schema} (hread : Row.read schema s = .ok row) :
    ((entries.map Prod.fst).filter (· ∈ schema.names)).Perm schema.names := by
  obtain ⟨texts, blanks, fuel, htexts, -, -, hfrom⟩ := exists_of_isObjectOf schema h
  obtain ⟨⟨row', behind⟩, hread, -⟩ := Text.exists_of_bind_eq_ok hread
  rw [hfrom] at hread
  obtain ⟨⟨slots, rest⟩, hmembers, hrow⟩ := Text.exists_of_bind_eq_ok hread
  dsimp only at hrow
  split at hrow
  · next filled hfilled =>
      have hperm := held_of_readMembers htexts hvalues hmembers
      rw [held_of_row? hfilled, held_none, List.append_nil] at hperm
      exact hperm.symm
  · cases hrow

/-- An object that lacks a key of the schema, or has one more than once, is no row. -/
theorem exists_error_of_count_ne_one (hnodup : schema.names.Nodup)
    {entries : List (String × List Char)}
    (hvalues : ∀ entry ∈ entries, Grammar.Value entry.2) {s : List Char}
    (h : IsObjectOf entries s) {name : String} (hname : name ∈ schema.names)
    (hcount : (entries.map Prod.fst).count name ≠ 1) :
    ∃ fault, Row.read schema s = .error fault := by
  rw [Text.exists_error_iff]
  intro ⟨row, hread⟩
  apply hcount
  have hperm := keys_of_read hvalues h hread
  have hheld : decide (name ∈ schema.names) = true := decide_eq_true hname
  rw [← List.count_filter (p := fun key => decide (key ∈ schema.names)) hheld,
    hperm.count_eq name, List.count_eq_one_of_mem hnodup hname]

end Vitals.Json
