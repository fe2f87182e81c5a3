/-
The samples are read back from their JSON texts.

# What a reader accepts, and what it asks for

A sample is one object of its fields, and a reader of it accepts every text that is that
object: the members in any order, with blanks wherever they may stand, with the keys spelt
in any way, and with members of other keys among them, whatever their values. It accepts
the list of the fields in order as well (`Codec.Keeps`). It does not accept an object that
lacks a field or has one more than once (`Codec.Demands`). All of that is about rows in
general; what is particular to the samples is that their keys differ and that their whole
numbers and texts are always read back, so the only condition on a sample is that its
seconds or its shares are.
-/
import Vitals.Proofs.Json.Members
import Vitals.Snapshot.Codec

namespace Vitals

open Binary Json

namespace Json.Codec

variable {α : Type} (codec : Codec α)

/-- What is written of a value: its keys in order, each with the text of its scalar. -/
def entries (x : α) : List (String × List Char) := Row.entries codec.schema (codec.toRow x)

/-- A value that a reader has from every text that is it: the one that is written, which is
the object of its entries; any object of them in any order, with others among them whose
keys it does not have; and the list of its scalars. -/
structure Keeps (x : α) : Prop where
  encoded : codec.decode (codec.encode x) = .ok x
  isObject : IsObjectOf (codec.entries x) (codec.encode x).toList
  values : ∀ entry ∈ codec.entries x, Grammar.Value entry.2
  object : ∀ (others entries : List (String × List Char)) (text : String),
    (∀ other ∈ others, other.1 ∉ codec.schema.names ∧ Grammar.Value other.2) →
    entries.Perm (codec.entries x ++ others) → IsObjectOf entries text.toList →
    codec.decode text = .ok x
  list : ∀ text : String, IsListOf ((codec.entries x).map Prod.snd) text.toList →
    codec.decode text = .ok x

/-- A reader that has no value from an object without one of the keys, or with one of them
more than once, whatever else is in it. -/
def Demands : Prop :=
  ∀ (entries : List (String × List Char)) (text : String),
    (∀ entry ∈ entries, Grammar.Value entry.2) → IsObjectOf entries text.toList →
    ∀ key ∈ codec.schema.names, (entries.map Prod.fst).count key ≠ 1 →
    ∃ fault, codec.decode text = .error fault

variable {codec} {x : α}

/-- A sample whose fields are read is decoded. -/
theorem decode_of_read {text : String}
    (h : Row.read codec.schema text.toList = .ok (codec.toRow x)) : codec.decode text = .ok x := by
  rw [decode, h]
  exact congrArg Except.ok (codec.ofRow_toRow x)

theorem toList_encode (x : α) :
    (codec.encode x).toList = Row.write codec.schema (codec.toRow x) := String.toList_ofList

/-- A value whose scalars are read back is had from every text that is it. -/
theorem keeps_of_readsBack (hnodup : codec.schema.names.Nodup)
    (h : Row.ReadsBack codec.schema (codec.toRow x)) : codec.Keeps x where
  encoded := by
    apply decode_of_read
    rw [toList_encode]
    refine @read_of_isObjectOf _ hnodup _ h [] _ nofun ?_ _ (isObjectOf_write (codec.toRow x))
    rw [List.append_nil]
  isObject := by
    rw [toList_encode]
    exact isObjectOf_write (codec.toRow x)
  values := value_of_mem_entries h
  object := by
    intro others entries text hothers hperm htext
    exact decode_of_read (read_of_isObjectOf hnodup h hothers hperm htext)
  list := by
    intro text htext
    exact decode_of_read (read_of_isListOf h htext)

/-- A sample whose fields have different names demands each of them. -/
theorem demands_of_nodup (hnodup : codec.schema.names.Nodup) : codec.Demands := by
  intro entries text hvalues htext key hkey hcount
  obtain ⟨fault, hfault⟩ := exists_error_of_count_ne_one hnodup hvalues htext hkey hcount
  refine ⟨fault, ?_⟩
  rw [decode, hfault]
  rfl

end Json.Codec

theorem Uptime.nodup_names : Uptime.codec.schema.names.Nodup := by decide

theorem Memory.nodup_names : Memory.codec.schema.names.Nodup := by decide

theorem Cpu.nodup_names : Cpu.codec.schema.names.Nodup := by decide

theorem ProcessUsage.nodup_names : ProcessUsage.codec.schema.names.Nodup := by decide

/-- Every sample whose seconds or shares are read back is read back from its text, from any
object of its fields, in whatever order and with whatever else, and from the list of them;
and no sample is read from an object that lacks one of its fields or has one more than
once. -/
theorem samples_are_read_back :
    ((∀ u : Uptime, Kind.double.ReadsBack u.totalSeconds → Uptime.codec.Keeps u)
      ∧ Uptime.codec.Demands)
    ∧ ((∀ m : Memory, Kind.single.ReadsBack m.usagePercent → Memory.codec.Keeps m)
      ∧ Memory.codec.Demands)
    ∧ ((∀ c : Cpu, Kind.single.ReadsBack c.usagePercent → Cpu.codec.Keeps c)
      ∧ Cpu.codec.Demands)
    ∧ (∀ p : ProcessUsage, Kind.single.ReadsBack p.memUsagePercent →
        Kind.single.ReadsBack p.cpuUsagePercent → ProcessUsage.codec.Keeps p)
      ∧ ProcessUsage.codec.Demands := by
  -- whole numbers and texts are read back whatever they are
  have hword8 : ∀ n, Kind.word8.ReadsBack n := Kind.readsBack (by decide) (by decide)
  have hword32 : ∀ n, Kind.word32.ReadsBack n := Kind.readsBack (by decide) (by decide)
  have hword64 : ∀ n, Kind.word64.ReadsBack n := Kind.readsBack (by decide) (by decide)
  have hsigned : ∀ n, Kind.signed32.ReadsBack n := Kind.readsBack (by decide) (by decide)
  have htext : ∀ s, Kind.text.ReadsBack s := Kind.readsBack (by decide) (by decide)
  refine ⟨⟨?_, Codec.demands_of_nodup Uptime.nodup_names⟩,
    ⟨?_, Codec.demands_of_nodup Memory.nodup_names⟩,
    ⟨?_, Codec.demands_of_nodup Cpu.nodup_names⟩,
    ?_, Codec.demands_of_nodup ProcessUsage.nodup_names⟩
  · intro u htotal
    apply Codec.keeps_of_readsBack Uptime.nodup_names
    exact ⟨htotal, hword32 u.hours, hword8 u.minutes, hword8 u.seconds, trivial⟩
  · intro m husage
    apply Codec.keeps_of_readsBack Memory.nodup_names
    exact ⟨hword64 m.totalKb, hword64 m.freeKb, husage, trivial⟩
  · intro c husage
    apply Codec.keeps_of_readsBack Cpu.nodup_names
    exact ⟨htext c.id, hword64 c.idleJiffies, hword64 c.totalJiffies, husage, trivial⟩
  · intro p hmem hcpu
    apply Codec.keeps_of_readsBack ProcessUsage.nodup_names
    exact ⟨hsigned p.pid, hsigned p.ppid, htext p.name, htext p.command, hword64 p.memUsageKb,
      hmem, hword64 p.utime, hword64 p.stime, hcpu, trivial⟩

/-- A share of 42.5. -/
def someShare : Binary single := .finite false (85 * 2 ^ 17) (-18) (by decide)

/-- A tenth of a second, as near as sixty-four bits hold it. -/
def someSeconds : Binary double := .finite false 7205759403792794 (-56) (by decide)

/-- A memory that is full. -/
def fullMemory : Memory := ⟨18446744073709551615, 0, someShare⟩

/-- Its entries in another order, with one of another key among them. -/
def shuffledEntries : List (String × List Char) :=
  [("usage_percent", "42.5".toList), ("host", "[null]".toList), ("free_kb", "0".toList),
    ("total_kb", "18446744073709551615".toList)]

/-- The object of these entries. -/
def shuffledText : String :=
  "\x7b\"usage_percent\":42.5,\"host\":[null],\"free_kb\":0,\"total_kb\":18446744073709551615\x7d"

/-- Its entries without that of what is free. -/
def lackingEntries : List (String × List Char) :=
  [("total_kb", "18446744073709551615".toList), ("usage_percent", "42.5".toList)]

/-- The object of these entries. -/
def lackingText : String := "\x7b\"total_kb\":18446744073709551615,\"usage_percent\":42.5\x7d"

/-- A process with the least number there is and a name that has to be escaped. -/
def oddProcess : ProcessUsage :=
  ⟨-2147483648, 2147483647, "\"\\\n\x00é😀", "", 18446744073709551615, someShare, 0, 1, someShare⟩

/-- Samples at the limits of their fields are read back, one of them in another order and with
a member of another key as well, and it is not read without one of its fields. -/
theorem samples_at_their_limits_are_read_back :
    (Kind.double.ReadsBack someSeconds
      ∧ Uptime.codec.Keeps ⟨someSeconds, 4294967295, 255, 0⟩)
    ∧ Kind.single.ReadsBack someShare
    ∧ Memory.codec.Keeps fullMemory
    ∧ Cpu.codec.Keeps ⟨"cpu0", 0, 18446744073709551615, someShare⟩
    ∧ ProcessUsage.codec.Keeps oddProcess
    ∧ Memory.codec.decode shuffledText = .ok fullMemory
    ∧ ∃ fault, Memory.codec.decode lackingText = .error fault := by
  obtain ⟨⟨huptime, -⟩, ⟨hmemory, hdemands⟩, ⟨hcpu, -⟩, hprocess, -⟩ := samples_are_read_back
  have hseconds : Kind.double.ReadsBack someSeconds := by
    unfold Kind.ReadsBack
    decide +kernel
  have hshare : Kind.single.ReadsBack someShare := by
    unfold Kind.ReadsBack
    decide +kernel
  have hkeeps := hmemory fullMemory hshare
  have hhost : Grammar.Value "[null]".toList :=
    @Grammar.Value.list [['n', 'u', 'l', 'l']] _ (by simp [Grammar.Value.null])
      ⟨[], _, nofun, .cons (spaced_self _) .nil, rfl⟩
  refine ⟨⟨hseconds, huptime _ hseconds⟩, hshare, hkeeps, hcpu _ hshare,
    hprocess oddProcess hshare hshare, ?_, ?_⟩
  · refine hkeeps.object [("host", "[null]".toList)] shuffledEntries _ ?_ (by decide +kernel) ?_
    · intro other hother
      rw [List.mem_singleton.mp hother]
      exact ⟨by decide, hhost⟩
    · have htext : shuffledText.toList
          = '{' :: [','].intercalate (shuffledEntries.map member) ++ ['}'] := by decide +kernel
      rw [htext]
      exact isObjectOf_members shuffledEntries
  · refine hdemands lackingEntries _ ?_ ?_ "free_kb" (by decide) (by decide)
    · have hown : ∀ entry ∈ lackingEntries, entry ∈ Memory.codec.entries fullMemory := by
        decide +kernel
      intro entry hentry
      exact hkeeps.values entry (hown entry hentry)
    · have htext : lackingText.toList
          = '{' :: [','].intercalate (lackingEntries.map member) ++ ['}'] := by decide +kernel
      rw [htext]
      exact isObjectOf_members lackingEntries

end Vitals
