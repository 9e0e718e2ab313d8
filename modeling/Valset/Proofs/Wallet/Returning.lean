import Valset.Bytes.Literal
import Valset.Proofs.Files.Undivided
import Valset.Proofs.Wallet.SeveralKeys

/-!
# Keys come back

A key that was stored in a file is got back from the file with its password, and the file names the
account of the key. A password that is not the right one opens nothing. A key is also read back from
its digits.
-/

namespace Valset

/-! ## Keys and accounts as text -/

/-- An account is read back from its text. -/
theorem Address.parse?_toHex (address : Address) : parse? address.toHex = some address := by
  have digits : Hex.dropMarker address.toHex.toList = Hex.encodeChars address.bytes :=
    Hex.dropMarker_encode0x address.bytes
  have kept : (Hex.encodeChars address.bytes).filter (!isGap ·) =
      Hex.encodeChars address.bytes := by
    refine List.filter_eq_self.mpr fun c present => ?_
    rw [@Hex.forall_mem_encodeChars (isGap · = false) (by decide) _ c present]
    rfl
  have decoded : Hex.decode (String.ofList (Hex.encodeChars address.bytes)) = .ok address.bytes :=
    Hex.decode_encode_eq_ok address.bytes
  rw [parse?, digits, kept, decoded]
  simp [Except.toOption, FixedBytes.ofBytes?, address.length_bytes]

namespace PrivateKey

/-- The digits of a key behind a number of markers. -/
def markedText (key : PrivateKey) : Nat → String
  | 0 => key.text
  | count + 1 => "0x" ++ key.markedText count

/-- The digits of a key have no marker in front. -/
theorem dropMarkers_text (key : PrivateKey) :
    Hex.dropMarkers key.text.toList = key.text.toList := by
  rw [text, Hex.encode, String.toList_ofList]
  exact Hex.dropMarkers_encodeChars key.bytes

theorem dropMarkers_markedText (key : PrivateKey) (count : Nat) :
    Hex.dropMarkers (key.markedText count).toList = key.text.toList := by
  induction count with
  | zero => exact key.dropMarkers_text
  | succ count inductionHypothesis =>
      rw [markedText, String.toList_append]
      exact inductionHypothesis

theorem dropUpperMarker_text (key : PrivateKey) :
    dropUpperMarker key.text.toList = key.text.toList := by
  have plain := @Hex.forall_mem_encodeChars (· ≠ 'X') (by decide) key.bytes
  rw [text, Hex.encode, String.toList_ofList]
  unfold dropUpperMarker
  split
  · next shape => exact absurd rfl (plain 'X' (by simp [shape]))
  · rfl

/-- A key is read back from its digits behind any number of markers. -/
theorem parse_markedText (key : PrivateKey) (count : Nat) :
    parse (key.markedText count) = .ok key := by
  have size : key.text.utf8ByteSize = 64 := by
    rw [text, Hex.encode, ← String.size_toByteArray, String.toByteArray_ofList, List.utf8Encode,
      List.size_toByteArray, Hex.length_utf8_encodeChars, bytes, Bytes.length_ofNat]
  have decoded : Hex.decode key.text = .ok key.bytes := Hex.decode_encode_eq_ok key.bytes
  rw [parse, dropMarkers_markedText, dropUpperMarker_text, String.ofList_toList]
  simp [size, decoded, bind, Except.bind, pure, Except.pure, Except.mapError, ofBytes?_bytes]

end PrivateKey

namespace Wallet

/-! ## Steps that succeed -/

section Steps

variable
  {α : Type}
  {tree later : FileTree}

theorem perform_withFiles_eq_ok_iff
    {step : FileProgram α}
    {value : α} :
    tree.perform (withFiles step).run = (.ok value, later) ↔
      tree.perform step.run = (.ok value, later) :=
  FileTree.perform_adapt_eq_ok_iff

/-- Whatever is read from a file as JSON stands for the text of the file. -/
theorem exists_text_of_readJson
    {path : String}
    {read : Json.Reader α}
    {value : α}
    (done : tree.perform (Files.readJson path read).run = (.ok value, later)) :
    later = tree ∧ ∃ content text, tree.read path = .ok content ∧
      Text.ofUtf8? content = some text ∧ (Json.parse text).bind read = some value := by
  rw [Files.readJson] at done
  obtain ⟨text, middle, taken, valued⟩ := FileTree.perform_bind_eq_ok_iff.mp done
  obtain ⟨rfl, content, held, isText⟩ := FileTree.of_perform_readText taken
  rw [Files.valueOf] at valued
  cases understood : (Json.parse text).bind read with
  | none =>
      rw [understood] at valued
      cases valued
  | some result =>
      rw [understood] at valued
      obtain ⟨same, rfl⟩ := Prod.mk.inj valued
      rw [Except.ok.inj same] at understood
      exact ⟨rfl, content, text, held, isText, understood⟩

theorem makeDirectories_of_perform
    {directory : String}
    (done : tree.perform (Files.makeDirectories directory).run = (.ok (), later)) :
    tree.makeDirectories directory = (.ok (), later) := by
  rw [Files.makeDirectories] at done
  obtain ⟨reply, between, asked, done⟩ := FileTree.perform_bind_eq_ok_iff.mp done
  rw [FileTree.perform_ask] at asked
  obtain ⟨answered, rfl⟩ := Prod.mk.inj asked
  cases reply with
  | error fault => cases done
  | ok nothing =>
      have made : (tree.makeDirectories directory).1 = .ok () := Except.ok.inj answered
      have same : (tree.makeDirectories directory).2 = later := (Prod.mk.inj done).2
      exact Prod.ext made same

theorem write_of_perform
    {path : String}
    {content : Bytes}
    {middle : FileTree}
    {reply : Except FileFault Unit}
    (asked : tree.perform (Files.ask (.write path content)).run = (.ok reply, middle))
    (accepted : middle.perform (orKeystoreError reply).run = (.ok (), later)) :
    tree.write path content = .ok later := by
  rw [FileTree.perform_ask] at asked
  obtain ⟨answered, rfl⟩ := Prod.mk.inj asked
  obtain rfl := Except.ok.inj answered
  change FileTree.perform (tree.settle (tree.write path content)).2
    (orKeystoreError (tree.settle (tree.write path content)).1).run = _ at accepted
  cases written : tree.write path content with
  | error fault =>
      rw [written] at accepted
      cases accepted
  | ok changed =>
      rw [written] at accepted
      exact congrArg Except.ok (Prod.mk.inj accepted).2

end Steps

/-! ## What a stored key comes back as -/

/-- Reads the account that a keystore names. -/
def readAccount : Json.Reader Address := fun json => do
  Address.parse? (← Json.readString (← json.get? "address"))

/-- A password does not open a new keystore, for its code is another one. -/
def Refuses
    (key : PrivateKey)
    (password : String)
    (seeds : KeystoreSeeds)
    (other : String) : Prop :=
  Keystore.codeOf
      (Scrypt.derive Keystore.newParams (Bytes.ofText other) seeds.salt Keystore.keySize)
      (Keystore.encrypt key password seeds).ciphertext ≠
    (Keystore.encrypt key password seeds).code

/-- From the file of a path a key is got back with its password, and with no other one whose code is
another one. The file names the account of the key. -/
structure ComesBack
    (key : PrivateKey)
    (password : String)
    (seeds : KeystoreSeeds)
    (path : String)
    (tree : FileTree) : Prop where
  loaded : tree.perform (load path password).run = (.ok key, tree)
  account : tree.perform (Files.readJson path readAccount).run = (.ok key.address, tree)
  refused : ∀ other, Refuses key password seeds other →
    tree.perform (load path other).run = (.error .keystore, tree)

section ComesBack

variable
  {tree later : FileTree}
  {key : PrivateKey}
  {password directory name path : String}
  {seeds : KeystoreSeeds}

theorem perform_load_of_text
    {text : String}
    (read : tree.read path = .ok (Bytes.ofText text))
    (password : String) :
    tree.perform (load path password).run = (keyOf text password, tree) := by
  rw [perform_load read, Except.bind, Files.textOf, Text.ofUtf8?_ofText]

/-- A key comes back from the last text of its file. -/
theorem comesBack_of_read
    (sized : seeds.Sized)
    (read : tree.read path = .ok (Bytes.ofText (finalText key password seeds))) :
    ComesBack key password seeds path tree := by
  refine ⟨?_, ?_, ?_⟩
  · rw [perform_load_of_text read, keyOf_finalText key password sized]
  · apply FileTree.perform_readJson read
    rw [parse_finalText]
    exact Address.parse?_toHex key.address
  · intro other otherCode
    rw [perform_load_of_text read, keyOf_finalText_of_otherCode key password sized otherCode]

/-- The first text of a file is read back from it, for a device would have lost it. -/
theorem fields_of_readJson
    (sound : tree.Sound)
    (noDevice : tree.NoStagedDevice)
    (written : tree.write path (Bytes.ofText (firstText key password seeds)) = .ok later)
    {fields : List (String × Json)}
    {last : FileTree}
    (read : later.perform (Files.readJson path readFields).run = (.ok fields, last)) :
    last = later ∧ later.Sound ∧ later.NoStagedDevice ∧
      fields = (Keystore.encrypt key password seeds).fields := by
  obtain ⟨rfl, content, text, readContent, isText, understood⟩ := exists_text_of_readJson read
  obtain ⟨location, located, continues, -, held | ⟨rfl, isFull, device⟩⟩ :=
    FileTree.exists_of_write sound written
  · have locatedLater := FileTree.locate_continues located continues
    rw [FileTree.read_of_file locatedLater held] at readContent
    rw [← Except.ok.inj readContent, Text.ofUtf8?_ofText] at isText
    rw [← Option.some.inj isText, parse_firstText] at understood
    exact ⟨rfl, continues.sound, noDevice.of_write sound written,
      (Option.some.inj understood).symm⟩
  · have empty : last.read path = .ok [] :=
      FileTree.read_eq_ok_iff.mpr ⟨location, located, .inr ⟨rfl, isFull, device⟩⟩
    rw [empty] at readContent
    rw [← Except.ok.inj readContent] at isText
    have noText : text = "" := (Option.some.inj isText).symm
    rw [noText] at understood
    cases understood

/-- When storing a key has succeeded, its file has the text of the keystore with the account. -/
theorem read_of_store
    (sound : tree.Sound)
    (noDevice : tree.NoStagedDevice)
    (stored : tree.perform (store key directory name password seeds).run = (.ok path, later)) :
    path = Path.join directory name ∧
      later.read path = .ok (Bytes.ofText (finalText key password seeds)) := by
  rw [store] at stored
  obtain ⟨_, ready, made, stored⟩ := FileTree.perform_bind_eq_ok_iff.mp stored
  obtain ⟨reply, middle, wrote, stored⟩ := FileTree.perform_bind_eq_ok_iff.mp stored
  obtain ⟨_, written, accepted, stored⟩ := FileTree.perform_bind_eq_ok_iff.mp stored
  obtain ⟨fields, reading, read, stored⟩ := FileTree.perform_bind_eq_ok_iff.mp stored
  obtain ⟨_, replaced, rewrote, ended⟩ := FileTree.perform_bind_eq_ok_iff.mp stored
  obtain ⟨same, rfl⟩ := Prod.mk.inj ended
  obtain rfl := Except.ok.inj same
  refine ⟨rfl, ?_⟩
  -- The directory is there, and no device has come into the way of the staging file.
  have directories := makeDirectories_of_perform (perform_withFiles_eq_ok_iff.mp made)
  obtain ⟨continues, onlyMade⟩ := FileTree.made_of_moves sound
    (show FileTree.moves (.makeDirectories directory) (.ok ()) tree ready from directories)
  have writtenFirst := write_of_perform (perform_withFiles_eq_ok_iff.mp wrote) accepted
  obtain ⟨rfl, soundFirst, noDeviceFirst, rfl⟩ := fields_of_readJson continues.sound
    (noDevice.of_made onlyMade) writtenFirst (perform_withFiles_eq_ok_iff.mp read)
  have finished := FileTree.perform_of_keeps (FileTree.keeps_writeText soundFirst noDeviceFirst
    (Path.join directory name) (finalText key password seeds))
  have performed : reading.perform (Files.writeText (Path.join directory name)
      (finalText key password seeds)).run = (.ok (), replaced) :=
    perform_withFiles_eq_ok_iff.mp rewrote
  rw [performed] at finished
  exact finished.2

/-- A key is stored where its file and its staging file can be written. -/
theorem exists_store_eq_ok
    {ready : FileTree}
    {place : Location}
    {request : Request}
    (sound : tree.Sound)
    (made : tree.makeDirectories directory = (.ok (), ready))
    (opened : ready.Opened directory place)
    (admissible : request.Admissible place ready)
    (short : (Files.staging request.name).utf8ByteSize ≤ FileTree.longestName)
    (notDirectory : ready.standing? (place ++ [Files.staging request.name]) ≠ some .directory) :
    ∃ later, tree.perform (request.store directory).run =
      (.ok (Path.join directory request.name), later) := by
  have soundReady := (FileTree.opened_of_makeDirectories sound made).1.sound
  obtain ⟨first, becomes, performed⟩ := exists_perform_addAccount soundReady opened admissible
  have openedFirst := opened.continues (becomes.continues_update admissible.writable.notDirectory)
  have nameNotDirectory : first.standing? (place ++ [request.name]) ≠ some .directory := by
    simp [becomes.standing]
  obtain ⟨later, replaced, -⟩ := Files.exists_perform_replaceText becomes.sound openedFirst
    request.plain short (writable_staging becomes admissible notDirectory) nameNotDirectory
    (finalText request.key request.password request.seeds)
  refine ⟨later, ?_⟩
  have written : first.perform (Files.writeJson (Path.join directory request.name)
      (withAddress request.key.address
        (Keystore.encrypt request.key request.password request.seeds).fields)).run =
          (.ok (), later) :=
    (perform_writeText_join openedFirst request _).trans replaced
  rw [perform_store_of_makeDirectories made opened, performed, Request.addAccount,
    FileTree.perform_bind_of_ok (perform_withFiles written)]
  rfl

end ComesBack

/-- A stored key comes back. Whatever the directory and the name are, once storing a key has
succeeded, the key is got back from its file with its password and with no other one that gives
another code, and the file names the account of the key. Storing succeeds under a plain name in a
directory where both the file and its staging file can be written. The digits of a key behind any
number of markers stand for the key. -/
theorem stored_key_comes_back
    (key : PrivateKey)
    (password : String)
    {seeds : KeystoreSeeds}
    (sized : seeds.Sized) :
    (∀ (tree : FileTree) directory name path later, tree.Sound → tree.NoStagedDevice →
        tree.perform (store key directory name password seeds).run = (.ok path, later) →
          path = Path.join directory name ∧ ComesBack key password seeds path later) ∧
      (∀ (tree ready : FileTree) directory place name, tree.Sound →
        tree.makeDirectories directory = (.ok (), ready) → ready.Opened directory place →
        Path.Plain name → (Files.staging name).utf8ByteSize ≤ FileTree.longestName →
        ready.Writable (place ++ [name]) → ready.Writable (place ++ [Files.staging name]) →
          ∃ later, tree.perform (store key directory name password seeds).run =
            (.ok (Path.join directory name), later)) ∧
      ∀ count, PrivateKey.parse (key.markedText count) = .ok key := by
  refine ⟨?_, ?_, key.parse_markedText⟩
  · intro tree directory name path later sound noDevice stored
    obtain ⟨rfl, read⟩ := read_of_store sound noDevice stored
    exact ⟨rfl, comesBack_of_read sized read⟩
  · intro tree ready directory place name sound made opened plain short writable writableStaging
    have shortName : name.utf8ByteSize ≤ FileTree.longestName := by
      rw [Files.staging, String.utf8ByteSize_append] at short
      omega
    let request : Request := ⟨key, name, password, seeds, plain, shortName, sized⟩
    have admissible : request.Admissible place ready := by
      refine ⟨writable, fun isFull device => ?_⟩
      rcases writableStaging with absent | ⟨old, held⟩
      · cases absent.symm.trans device
      · cases held.symm.trans device
    exact @exists_store_eq_ok _ _ _ _ request sound made opened admissible short
      writableStaging.notDirectory

/-- The key that is stored in an empty directory comes back. -/
theorem sampleRequest_comes_back :
    ∃ later,
      FileTree.empty.perform (store sampleRequest.key "keys" sampleRequest.name
        sampleRequest.password sampleSeeds).run = (.ok "keys/a", later) ∧
      ComesBack sampleRequest.key sampleRequest.password sampleSeeds "keys/a" later ∧
      PrivateKey.parse (sampleRequest.key.markedText 2) = .ok sampleRequest.key := by
  obtain ⟨comesBack, succeeds, parsed⟩ := @stored_key_comes_back sampleRequest.key
    sampleRequest.password sampleSeeds ⟨rfl, rfl⟩
  have admissible : sampleRequest.Admissible ["work", "keys"] sampleTree :=
    admissible_sampleTree (by decide)
  obtain ⟨later, stored⟩ := succeeds FileTree.empty sampleTree "keys" ["work", "keys"]
    sampleRequest.name FileTree.sound_empty makeDirectories_sample opened_sampleTree
    sampleRequest.plain (by decide) admissible.writable (.inl (by decide))
  exact ⟨later, stored, (comesBack _ _ _ _ _ FileTree.sound_empty FileTree.noStagedDevice_empty
    stored).2,
    parsed 2⟩

end Wallet
end Valset
