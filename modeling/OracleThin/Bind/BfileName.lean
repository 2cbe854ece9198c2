import OracleThin.Lib.Seek
import OracleThin.Ttc.NumberText

/-!
# Names in BFILE locators

A BFILE locator ends with the alias of a directory and the name of a file, each behind its length. The decoder does
not know where they begin: it tries one position after the other and takes the first one from which the two lengths
lead to the end of the locator. So the header must not have such a position, and neither name may be empty.
-/

namespace OracleThin.Bind

open Lib Ttc

def u16At (bytes : List UInt8) (pos : Nat) : Nat := ofBe ((bytes.drop pos).take 2)

/-- There are two lengths other than 0 from the position on, and they lead to the end of the locator. -/
def leadsToEnd (locator : List UInt8) (dirLenPos : Nat) : Bool :=
  let dirLen := u16At locator dirLenPos
  let dirEnd := dirLenPos + 2 + dirLen
  let fileLen := u16At locator dirEnd
  dirLen ≠ 0 ∧ dirEnd + 2 ≤ locator.length ∧ fileLen ≠ 0 ∧ dirEnd + 2 + fileLen = locator.length

def decodeBfileLocatorName (locator : List UInt8) : Option (String × String) := do
  let dirLenPos ← (List.range (locator.length - 4)).find? (leadsToEnd locator)
  let dirLen := u16At locator dirLenPos
  let dirEnd := dirLenPos + 2 + dirLen
  let fileLen := u16At locator dirEnd
  let dir ← String.fromUTF8? (ByteArray.mk ((locator.drop (dirLenPos + 2)).take dirLen).toArray)
  let file ← String.fromUTF8? (ByteArray.mk ((locator.drop (dirEnd + 2)).take fileLen).toArray)
  return (dir, file)

/-- A locator with the given names. -/
def bfileLocator (header : List UInt8) (dir file : String) : List UInt8 :=
  header ++ (toBe 2 (textBytes dir).length ++ (textBytes dir ++ (toBe 2 (textBytes file).length ++ textBytes file)))

private theorem u16At_of_standsAt {bytes : List UInt8} {pos n : Nat} (h : StandsAt bytes pos (toBe 2 n))
    (hn : n < 2 ^ 16) :
    u16At bytes pos = n := by
  have hbytes := h.take_drop
  rw [length_toBe] at hbytes
  rw [u16At, hbytes, ofBe_toBe_of_lt hn]

/-- The names are found exactly if they are not empty and no position of the header leads to the end. -/
theorem decodeBfileLocatorName_iff (header : List UInt8) (dir file : String) (hheader : header.length = 16)
    (hdir : (textBytes dir).length < 2 ^ 16) (hfile : (textBytes file).length < 2 ^ 16) :
    decodeBfileLocatorName (bfileLocator header dir file) = some (dir, file) ↔
      dir ≠ "" ∧ file ≠ "" ∧ ∀ pos < 16, leadsToEnd (bfileLocator header dir file) pos = false := by
  have hlength : (bfileLocator header dir file).length = 20 + (textBytes dir).length + (textBytes file).length := by
    simp only [bfileLocator, List.length_append, length_toBe]
    omega
  have hall : StandsAt (bfileLocator header dir file) 16
      (toBe 2 (textBytes dir).length ++ (textBytes dir ++ (toBe 2 (textBytes file).length ++ textBytes file))) :=
    ⟨header, [], by rw [List.append_nil, bfileLocator], hheader⟩
  simp only [StandsAt.append_iff, length_toBe] at hall
  obtain ⟨hdirAt, hdirPart, hfileAt, hfilePart⟩ := hall
  have hdirLen := u16At_of_standsAt hdirAt hdir
  have hfileLen := u16At_of_standsAt hfileAt hfile
  rw [ne_eq, ne_eq, ← textBytes_eq_nil_iff, ← textBytes_eq_nil_iff]
  generalize bfileLocator header dir file = locator at *
  constructor
  · intro h
    obtain ⟨pos, hpos, h⟩ := Option.bind_eq_some_iff.1 h
    obtain ⟨dir', hdir', h⟩ := Option.bind_eq_some_iff.1 h
    obtain ⟨file', hfile', h⟩ := Option.bind_eq_some_iff.1 h
    cases h
    obtain ⟨hend, -, hfirst⟩ := List.find?_range_eq_some.1 hpos
    obtain ⟨hdirNe, hbound, hfileNe, hsum⟩ := of_decide_eq_true hend
    -- names of these lengths stand at no other position
    have hdirTake := congrArg List.length (fromUTF8?_eq_some_iff.1 hdir')
    have hfileTake := congrArg List.length (fromUTF8?_eq_some_iff.1 hfile')
    rw [List.length_take, List.length_drop] at hdirTake hfileTake
    obtain rfl : pos = 16 := by omega
    refine ⟨List.length_pos_iff.1 (by omega), List.length_pos_iff.1 (by omega), fun j hj =>
      by simpa using hfirst j hj⟩
  · rintro ⟨hdirNe, hfileNe, hnone⟩
    have hdirPos := List.length_pos_iff.2 hdirNe
    have hfilePos := List.length_pos_iff.2 hfileNe
    have hend : leadsToEnd locator 16 = true := by
      simp only [leadsToEnd, hdirLen, hfileLen]
      exact decide_eq_true ⟨by omega, by omega, by omega, by omega⟩
    have hpos : (List.range (locator.length - 4)).find? (leadsToEnd locator) = some 16 :=
      List.find?_range_eq_some.2 ⟨hend, List.mem_range.2 (by omega), fun j hj => by rw [hnone j hj]; rfl⟩
    unfold decodeBfileLocatorName
    rw [hpos]
    simp only [Option.bind_eq_bind, Option.bind_some, hdirLen, hfileLen, hdirPart.take_drop, hfilePart.take_drop,
      fromUTF8?_eq_some_iff.2 rfl]
    rfl

theorem decodeBfileLocatorName_zeros :
    decodeBfileLocatorName (bfileLocator (List.replicate 16 0) "DIR" "a.txt") = some ("DIR", "a.txt") :=
  (decodeBfileLocatorName_iff _ "DIR" "a.txt" rfl (by decide) (by decide)).2 (by decide)

/-- A position of the header leads to the end, and its lengths cut other names out of the locator. -/
theorem decodeBfileLocatorName_header :
    decodeBfileLocatorName (bfileLocator [0, 1, 65, 0, 17, 0, 0, 0, 0, 0, 0, 0, 0, 0, 0, 0] "D" "f") ≠ some
    ("D", "f") := by
  decide

end OracleThin.Bind
