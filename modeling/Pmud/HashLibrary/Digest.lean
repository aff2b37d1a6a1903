import Pmud.Foundation.Lists
import Pmud.HashLibrary.CRC32
import Pmud.HashLibrary.Hmac
import Pmud.HashLibrary.Keccak

/-! # The digest program

`common/hash-library/digest.cpp`: a file or the standard input is read piece by
piece into the hashes that were chosen, whose texts are printed. What the
memory held before, and the byte order of the machine, are parameters.
-/

namespace Pmud.HashLibrary.Digest

open Foundation

/-- A hash object, as far as the program uses it. -/
structure Digester where
  State : Type
  initial : State
  add : State → List UInt8 → Option State
  getHash : State → Option ByteString

/-- What the memory of the objects held before, and the stack at each call that takes a
second block from it. -/
structure Garbage where
  md5 : MD5.method.State
  sha1 : SHA1.method.State
  sha256 : SHA256.method.State
  keccak : Keccak.State
  sha3 : Keccak.State
  md5Extra : Vector UInt8 blockBytes
  sha1Extra : Vector UInt8 blockBytes
  sha256Extra : Vector UInt8 blockBytes

def crc32 (host : ByteOrder) : Digester where
  State := BitVec 32
  initial := 0
  add hash data := some (CRC32.add host hash data)
  getHash hash := some (CRC32.getHash hash)

def ofMethod (method : HashMethod) (host : ByteOrder) (memory : method.State)
    (extra : Vector UInt8 blockBytes) : Digester where
  State := method.State
  initial := method.construct memory
  add self data := self.add blockBytes (method.processBlock host) data data.length
  getHash self := (method.getHashBytes host extra self).map fun (_, rawHash) => hex rawHash

def ofSponge (sponge : Keccak.Class) (bits : Keccak.Bits) (host : ByteOrder)
    (memory : Keccak.State) : Digester where
  State := Keccak.State
  initial := Keccak.construct memory
  add self data := self.add bits.blockSize (Keccak.processBlock host bits) data data.length
  getHash self := (Keccak.getHash sponge host bits self).map Prod.snd

/-- One of the six hashes with the arguments that choose it. -/
structure Line where
  label : ByteString
  options : List ByteString
  digester : Digester

def Line.computed (line : Line) (algorithm : ByteString) : Bool :=
  algorithm.isEmpty || line.options.contains algorithm

/-- In the order in which they are printed. -/
def lines (host : ByteOrder) (garbage : Garbage) : List Line :=
  [⟨text "CRC32:      ", [text "--crc"], crc32 host⟩,
    ⟨text "MD5:        ", [text "--md5"], ofMethod MD5.method host garbage.md5 garbage.md5Extra⟩,
    ⟨text "SHA1:       ", [text "--sha1"],
      ofMethod SHA1.method host garbage.sha1 garbage.sha1Extra⟩,
    ⟨text "SHA2/256:   ", [text "--sha2", text "--sha256"],
      ofMethod SHA256.method host garbage.sha256 garbage.sha256Extra⟩,
    ⟨text "Keccak/256: ", [text "--keccak"], ofSponge .keccak .bits256 host garbage.keccak⟩,
    ⟨text "SHA3/256:   ", [text "--sha3"], ofSponge .sha3 .bits256 host garbage.sha3⟩]

/-- A chosen hash and the object as it is now. -/
structure Running where
  line : Line
  state : line.digester.State

def addTo (data : List UInt8) (running : Running) : Option Running :=
  (running.line.digester.add running.state data).map fun state => ⟨running.line, state⟩

/-- `144*7*1024`. -/
def bufferSize : Nat := 144 * 7 * 1024

/-- `while (*input)`: a `read` that finds less than a buffer is the last one. -/
def readInput (input : List UInt8) (running : List Running) : Option (List Running) :=
  if bufferSize ≤ input.length then
    (running.mapM (addTo (input.take bufferSize))).bind (readInput (input.drop bufferSize))
  else
    running.mapM (addTo input)
  termination_by input.length
  decreasing_by
    rw [List.length_drop]
    simp only [bufferSize] at *
    omega

def endLine : ByteString := text "\n"

def showHash (running : Running) : Option ByteString :=
  (running.line.digester.getHash running.state).map fun hash =>
    running.line.label ++ hash ++ endLine

def usage : ByteString :=
  text "./digest filename [--crc|--md5|--sha1|--sha256|--keccak|--sha3]"

def digestInput (host : ByteOrder) (garbage : Garbage) (algorithm : ByteString)
    (input : List UInt8) : Option Outcome :=
  let chosen := (lines host garbage).filter fun line => line.computed algorithm
  (readInput input (chosen.map fun line => ⟨line, line.digester.initial⟩)).bind fun final =>
    (final.mapM showHash).map fun hashes => ⟨hashes.flatten, [], 0⟩

/-- `main`, where `arguments` are those behind the name of the program and `files` are the files
that can be opened. -/
def main (host : ByteOrder) (garbage : Garbage) (cin : List UInt8)
    (files : ByteString → Option (List UInt8)) (arguments : List ByteString) : Option Outcome :=
  let run (filename algorithm : ByteString) :=
    if filename = text "-" then
      digestInput host garbage algorithm cin
    else
      match files filename with
      | none => some ⟨[], text "Can't open '" ++ filename ++ text "'" ++ endLine, 2⟩
      | some content => digestInput host garbage algorithm content
  match arguments with
  | [filename] => run filename []
  | [filename, algorithm] => run filename algorithm
  | _ => some ⟨usage ++ endLine, [], 1⟩

/-! ## What it is for -/

/-- The hashes by their definitions, each with its label and its options. -/
def references : List (ByteString × List ByteString × (List UInt8 → List UInt8)) :=
  [(text "CRC32:      ", [text "--crc"], CRC32.digest),
    (text "MD5:        ", [text "--md5"], MD5.standard.digest),
    (text "SHA1:       ", [text "--sha1"], SHA1.standard.digest),
    (text "SHA2/256:   ", [text "--sha2", text "--sha256"], SHA256.standard.digest),
    (text "Keccak/256: ", [text "--keccak"], Keccak.digest .keccak .bits256),
    (text "SHA3/256:   ", [text "--sha3"], Keccak.digest .sha3 .bits256)]

/-- The lines that should be printed of a content. -/
def report (algorithm : ByteString) (content : List UInt8) : ByteString :=
  (references.filter fun reference =>
    algorithm = [] ∨ reference.2.1.contains algorithm).flatMap fun reference =>
      reference.1 ++ hex (reference.2.2 content) ++ endLine

/-- What the program should do with a content, or without one. -/
def outcome (filename algorithm : ByteString) : Option (List UInt8) → Outcome
  | none => ⟨[], text "Can't open '" ++ filename ++ text "'" ++ endLine, 2⟩
  | some content => ⟨report algorithm content, [], 0⟩

def expected (cin : List UInt8) (files : ByteString → Option (List UInt8))
    (arguments : List ByteString) : Outcome :=
  let content (filename : ByteString) :=
    if filename = text "-" then some cin else files filename
  match arguments with
  | [filename] => outcome filename [] (content filename)
  | [filename, algorithm] => outcome filename algorithm (content filename)
  | _ => ⟨usage ++ endLine, [], 1⟩

/-- `represents` says which bytes an object has taken; its hash is the reference of these. -/
structure Digester.Computes (digester : Digester) (reference : List UInt8 → List UInt8)
    (represents : digester.State → List UInt8 → Prop) : Prop where
  initial : represents digester.initial []
  add : ∀ self message data, represents self message →
    ∃ next, digester.add self data = some next ∧ represents next (message ++ data)
  getHash : ∀ self message, represents self message →
    digester.getHash self = some (hex (reference message))

theorem crc32_computes (host : ByteOrder) :
    (crc32 host).Computes CRC32.digest fun hash message => hash = CRC32.checksum message where
  initial := show (0 : BitVec 32) = CRC32.checksum [] by decide
  add := by
    rintro _ message data rfl
    exact ⟨_, rfl, CRC32.add_checksum host message data⟩
  getHash := by
    rintro _ message rfl
    exact congrArg some (CRC32.getHash_eq_hex (CRC32.checksum message))

theorem ofMethod_computes (algorithm : Algorithm) (host : ByteOrder)
    (memory : algorithm.method.State) (extra : Vector UInt8 blockBytes) :
    (ofMethod algorithm.method host memory extra).Computes algorithm.standard.digest
      (Hasher.Represents blockBytes (algorithm.method.processBlock host)
        algorithm.method.initial) where
  initial := HashMethod.reset_represents host memory
  add _ _ data represents := represents.add (by decide) (Nat.le_refl _) data
  getHash _ message represents := by
    rcases HashMethod.getHashBytes_eq_some represents extra with ⟨next, got, -⟩
    rw [algorithm.digest_eq] at got
    exact congrArg (Option.map fun result => hex result.2) got

theorem ofSponge_computes (sponge : Keccak.Class) (bits : Keccak.Bits) (host : ByteOrder)
    (memory : Keccak.State) :
    (ofSponge sponge bits host memory).Computes (Keccak.digest sponge bits)
      (Keccak.Represents host bits) where
  initial := Keccak.reset_represents host bits memory
  add _ _ data represents :=
    represents.add (Keccak.blockSize_bounds bits).1 (Keccak.blockSize_bounds bits).2.1 data
  getHash _ _ represents := by
    rcases Keccak.getHash_eq_some sponge represents with ⟨next, got, -⟩
    exact congrArg (Option.map Prod.snd) got

abbrev Reference : Type := ByteString × List ByteString × (List UInt8 → List UInt8)

/-- A line of the program is the line of a reference. -/
def Line.Prints (line : Line) (reference : Reference) : Prop :=
  line.label = reference.1 ∧ line.options = reference.2.1 ∧
    ∃ represents, line.digester.Computes reference.2.2 represents

/-- An object that has taken the bytes of `message`. -/
def Running.Took (message : List UInt8) (running : Running) (reference : Reference) : Prop :=
  running.line.label = reference.1 ∧
    ∃ represents, running.line.digester.Computes reference.2.2 represents ∧
      represents running.state message

theorem lines_print (host : ByteOrder) (garbage : Garbage) :
    List.Forall₂ Line.Prints (lines host garbage) references := by
  exact .cons ⟨rfl, rfl, _, crc32_computes host⟩ <|
    .cons ⟨rfl, rfl, _, ofMethod_computes .md5 host garbage.md5 garbage.md5Extra⟩ <|
    .cons ⟨rfl, rfl, _, ofMethod_computes .sha1 host garbage.sha1 garbage.sha1Extra⟩ <|
    .cons ⟨rfl, rfl, _, ofMethod_computes .sha256 host garbage.sha256 garbage.sha256Extra⟩ <|
    .cons ⟨rfl, rfl, _, ofSponge_computes .keccak .bits256 host garbage.keccak⟩ <|
    .cons ⟨rfl, rfl, _, ofSponge_computes .sha3 .bits256 host garbage.sha3⟩ .nil

theorem addTo_took (data : List UInt8) {message : List UInt8} (running : Running)
    (reference : Reference) (took : running.Took message reference) :
    ∃ next, addTo data running = some next ∧ next.Took (message ++ data) reference := by
  rcases took with ⟨label, represents, computes, here⟩
  rcases computes.add running.state message data here with ⟨state, added, there⟩
  exact ⟨⟨running.line, state⟩, by rw [addTo, added]; rfl, label, represents, computes, there⟩

/-- The reads cut the input in pieces, all of which every object takes. -/
theorem readInput_took (input : List UInt8) {message : List UInt8} {running : List Running}
    {chosen : List Reference} (took : List.Forall₂ (Running.Took message) running chosen) :
    ∃ final, readInput input running = some final ∧
      List.Forall₂ (Running.Took (message ++ input)) final chosen := by
  induction input using Blocks.block_induction (show 0 < bufferSize by decide) generalizing
    message running with
  | short input small =>
      rw [readInput, if_neg (by omega)]
      exact List.mapM_of_forall₂ (addTo_took input) took
  | block block rest full induction =>
      rcases List.mapM_of_forall₂ (addTo_took block) took with ⟨next, added, there⟩
      rcases induction there with ⟨final, ran, finished⟩
      refine ⟨final, ?_, by rwa [← List.append_assoc]⟩
      rw [readInput, if_pos (by rw [List.length_append]; omega), List.take_left' full, added,
        List.drop_left' full, Option.bind_some, ran]

theorem showHash_took {message : List UInt8} (running : Running) (reference : Reference)
    (took : running.Took message reference) :
    ∃ line, showHash running = some line ∧
      line = reference.1 ++ hex (reference.2.2 message) ++ endLine := by
  rcases took with ⟨label, represents, computes, here⟩
  refine ⟨_, ?_, rfl⟩
  rw [showHash, computes.getHash running.state message here, label]
  rfl

theorem chosen_print (host : ByteOrder) (garbage : Garbage) (algorithm : ByteString) :
    List.Forall₂ Line.Prints
      ((lines host garbage).filter fun line => line.computed algorithm)
      (references.filter fun reference => algorithm = [] ∨ reference.2.1.contains algorithm) := by
  refine List.rel_filter ?_ (lines_print host garbage)
  rintro line reference ⟨-, options, -⟩
  simp [Line.computed, options]

theorem digestInput_eq_some (host : ByteOrder) (garbage : Garbage) (algorithm : ByteString)
    (input : List UInt8) :
    digestInput host garbage algorithm input = some ⟨report algorithm input, [], 0⟩ := by
  have fresh : List.Forall₂ (Running.Took [])
      (((lines host garbage).filter fun line => line.computed algorithm).map
        fun line => ⟨line, line.digester.initial⟩)
      (references.filter fun reference => algorithm = [] ∨ reference.2.1.contains algorithm) := by
    rw [List.forall₂_map_left_iff]
    apply (chosen_print host garbage algorithm).imp
    rintro line reference ⟨label, -, represents, computes⟩
    exact ⟨label, represents, computes, computes.initial⟩
  rcases readInput_took input fresh with ⟨final, ran, took⟩
  rcases List.mapM_of_forall₂ showHash_took took with ⟨hashes, shown, printed⟩
  have texts : hashes.flatten = report algorithm input := by
    have same := List.forall₂_eq_eq_eq ▸ List.forall₂_map_right_iff.mpr printed
    rw [same, report, List.flatMap, List.nil_append]
  rw [digestInput, ran, Option.bind_some, shown, Option.map_some, texts]

/-- On any machine, whatever the memory held, for every input and all arguments. -/
theorem digest_prints (host : ByteOrder) (garbage : Garbage) (cin : List UInt8)
    (files : ByteString → Option (List UInt8)) (arguments : List ByteString) :
    main host garbage cin files arguments = some (expected cin files arguments) := by
  have one : ∀ filename algorithm,
      (if filename = text "-" then digestInput host garbage algorithm cin
        else match files filename with
          | none => some ⟨[], text "Can't open '" ++ filename ++ text "'" ++ endLine, 2⟩
          | some content => digestInput host garbage algorithm content) =
        some (outcome filename algorithm
          (if filename = text "-" then some cin else files filename)) := by
    intro filename algorithm
    by_cases standard : filename = text "-"
    · rw [if_pos standard, if_pos standard, digestInput_eq_some]
      rfl
    · rw [if_neg standard, if_neg standard]
      cases files filename with
      | none => rfl
      | some content => exact digestInput_eq_some host garbage algorithm content
  unfold main expected
  split
  · exact one _ _
  · exact one _ _
  · rfl

end Pmud.HashLibrary.Digest
