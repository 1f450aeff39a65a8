import Pangolin.Kdbx.Map

/-!
# What the store makes of a mapped entry

The caps of the importer cover the counts, the emptiness checks, the notes, the password and
the TOTP slot.  What they leave to the store is the length of a name after normalisation, its
control characters, and whether a URL parses.
-/

namespace Pangolin.Kdbx

open Store Utf8

/-! ## Blank texts -/

theorem trim_eq_nil_iff {text : Text} : trim text = [] ↔ ∀ char ∈ text, isWhitespace char := by
  rw [trim, List.rdropWhile_eq_nil_iff]
  constructor
  · intro blank char member
    rw [← List.takeWhile_append_dropWhile (p := isWhitespace) (l := text)] at member
    rcases List.mem_append.mp member with front | back
    · exact List.mem_takeWhile_imp front
    · exact blank char back
  · intro blank char member
    exact blank char ((List.dropWhile_sublist isWhitespace).subset member)

/-- A text with a character that is not white space. -/
def Inked (text : Text) : Prop := ∃ char ∈ text, isWhitespace char = false

theorem inked_iff {text : Text} : Inked text ↔ trim text ≠ [] := by
  rw [ne_eq, trim_eq_nil_iff]
  simp [Inked]

/-- What is left of a text begins with a character that is not white space. -/
theorem head_trim {text rest : Text} {char : Char} (trimmed : trim text = char :: rest) :
    isWhitespace char = false := by
  by_contra blank
  rw [Bool.not_eq_false] at blank
  have again := trim_trim text
  rw [trimmed, trim, List.dropWhile_cons_of_pos blank] at again
  have shorter := (List.rdropWhile_prefix isWhitespace (rest.dropWhile isWhitespace)).length_le.trans
    (List.dropWhile_sublist isWhitespace).length_le
  rw [again, List.length_cons] at shorter
  omega

theorem inked_of_head {text rest : Text} {char : Char} (trimmed : trim text = char :: rest)
    (more : Text) : Inked (char :: more) :=
  ⟨char, List.mem_cons_self, head_trim trimmed⟩

/-! ## Cut texts -/

/-- A text has at most as many characters as bytes. -/
theorem length_le_encode (text : Text) : text.length ≤ (encode text).length := by
  induction text with
  | nil => exact Nat.le_refl 0
  | cons char text ih =>
      have positive : 0 < char.utf8Size := Char.utf8Size_pos char
      have bytes : (encode (char :: text)).length = char.utf8Size + (encode text).length := by
        rw [encode, List.flatMap_cons, List.length_append, String.length_utf8EncodeChar]
        rfl
      rw [List.length_cons, bytes]
      omega

theorem length_encode_takeBytes (room : Nat) (text : Text) :
    (encode (takeBytes room text)).length ≤ room := by
  induction text generalizing room with
  | nil =>
      rw [takeBytes]
      exact Nat.zero_le room
  | cons char text ih =>
      rw [takeBytes]
      split
      · next fits =>
          have rest := ih (room - char.utf8Size)
          rw [encode, List.flatMap_cons, List.length_append, String.length_utf8EncodeChar]
          change char.utf8Size + (encode (takeBytes (room - char.utf8Size) text)).length ≤ room
          omega
      · exact Nat.zero_le room

theorem length_encode_truncateBytes (text : Text) (maxBytes : Nat) :
    (encode (truncateBytes text maxBytes)).length ≤ maxBytes := by
  unfold truncateBytes
  split
  · next short => exact short
  · exact length_encode_takeBytes maxBytes text

/-- A cut text is empty or keeps the first character. -/
theorem truncateBytes_cons (char : Char) (rest : Text) (maxBytes : Nat) :
    truncateBytes (char :: rest) maxBytes = [] ∨
      ∃ more, truncateBytes (char :: rest) maxBytes = char :: more := by
  unfold truncateBytes
  split
  · exact .inr ⟨rest, rfl⟩
  · rw [takeBytes]
    split
    · exact .inr ⟨_, rfl⟩
    · exact .inl rfl

/-- With room for one character it is not empty. -/
theorem truncateBytes_cons_of_room (char : Char) (rest : Text) {maxBytes : Nat}
    (room : 4 ≤ maxBytes) : ∃ more, truncateBytes (char :: rest) maxBytes = char :: more := by
  have size : char.utf8Size ≤ 4 := Char.utf8Size_le_four char
  unfold truncateBytes
  split
  · exact ⟨rest, rfl⟩
  · rw [takeBytes, if_pos (size.trans room)]
    exact ⟨_, rfl⟩

/-! ## Mapped entries -/

/-- What the caps of the importer ensure. -/
structure Prepared (mapped : MappedEntry) : Prop where
  displayName : Inked mapped.displayName
  usernames : ∃ username, mapped.usernames = [username] ∧ Inked username
  tags : ∀ tag ∈ mapped.tags, Inked tag
  fewTags : mapped.tags.length ≤ 32
  urls : ∀ url ∈ mapped.urls, url.length ≤ 2048
  fewUrls : mapped.urls.length ≤ 32
  notes : mapped.notes.length ≤ 65536
  password : Validate.password mapped.password = .ok ()
  totp : ∀ parsed, mapped.totp = some parsed → parsed.Storable
  history : ∀ entry ∈ mapped.historyPasswords, Validate.password entry.1 = .ok ()

theorem truncateChars_inked {text : Text} (inked : Inked text) (maxChars : Nat) :
    Inked (truncateChars text maxChars) := by
  unfold truncateChars
  split
  · exact inked
  · exact ⟨'…', by simp, by decide⟩

theorem mapDisplayName_inked (title username url : Text) :
    Inked (mapDisplayName title username url) := by
  have untitled (text : Text) : Inked ("(untitled — ".toList ++ text ++ [')']) :=
    ⟨')', by simp, by decide⟩
  have imported : Inked "Imported entry".toList := ⟨'I', by decide, by decide⟩
  unfold mapDisplayName
  apply truncateChars_inked
  dsimp only
  split
  · split
    · exact untitled _
    split
    · split
      · exact imported
      · exact untitled _
    · exact imported
  · next titled =>
      cases trimmed : trim title with
      | nil => simp [trimmed] at titled
      | cons char rest => exact inked_of_head trimmed rest

theorem mapUsername_inked (username : Text) : Inked (mapUsername username) := by
  unfold mapUsername
  split
  · exact ⟨'n', by decide, by decide⟩
  · next named =>
      cases trimmed : trim username with
      | nil => simp [trimmed] at named
      | cons char rest =>
          obtain ⟨more, cut⟩ := truncateBytes_cons_of_room char rest
            (show 4 ≤ usernameMax by decide)
          rw [cut]
          exact inked_of_head trimmed more

theorem mem_dedupTags {tags seen : List Text} {tag : Text} (member : tag ∈ dedupTags seen tags) :
    tag ∈ tags ∧ tag ≠ [] := by
  induction tags generalizing seen with
  | nil => cases member
  | cons head tags ih =>
      rw [dedupTags] at member
      split at member
      · obtain ⟨listed, nonempty⟩ := ih member
        exact ⟨List.mem_cons_of_mem _ listed, nonempty⟩
      · next kept =>
          rcases List.mem_cons.mp member with rfl | later
          · refine ⟨List.mem_cons_self, ?_⟩
            rintro rfl
            simp at kept
          · obtain ⟨listed, nonempty⟩ := ih later
            exact ⟨List.mem_cons_of_mem _ listed, nonempty⟩

/-- A trimmed text that is cut is empty or begins with ink. -/
theorem truncateBytes_trim_inked {text : Text} {maxBytes : Nat}
    (nonempty : truncateBytes (trim text) maxBytes ≠ []) :
    Inked (truncateBytes (trim text) maxBytes) := by
  cases trimmed : trim text with
  | nil =>
      rw [trimmed] at nonempty
      exact absurd (by simp [truncateBytes, encode]) nonempty
  | cons char rest =>
      rw [trimmed] at nonempty
      obtain ⟨more, cut⟩ := (truncateBytes_cons char rest maxBytes).resolve_left nonempty
      rw [cut]
      exact inked_of_head trimmed more

theorem mapTags_inked {entry : KdbxEntry} {now : Int} {tag : Text}
    (member : tag ∈ mapTags entry now) : Inked tag := by
  obtain ⟨listed, nonempty⟩ := mem_dedupTags (List.mem_of_mem_take member)
  rcases List.mem_append.mp listed with front | expired
  · rcases List.mem_append.mp front with named | group
    · obtain ⟨raw, -, rfl⟩ := List.mem_map.mp named
      exact truncateBytes_trim_inked nonempty
    · obtain ⟨raw, -, rfl⟩ := List.mem_map.mp group
      exact truncateBytes_trim_inked nonempty
  · split at expired
    · rw [List.mem_singleton.mp expired]
      exact ⟨'e', by decide, by decide⟩
    · cases expired

theorem mapUrls_short {url text : Text} (member : text ∈ mapUrls url) : text.length ≤ 2048 := by
  have listed := List.mem_of_mem_take member
  split at listed
  · next usable =>
      rw [List.mem_singleton.mp listed]
      simp only [Bool.and_eq_true, decide_eq_true_eq] at usable
      exact (length_le_encode _).trans usable.1.2
  · cases listed

theorem mapNotes_short (entry : KdbxEntry) (attachmentNote : Option Text) :
    (mapNotes entry attachmentNote).length ≤ 65536 := by
  have cut := length_encode_truncateBytes (composeNotes entry attachmentNote) notesMax
  apply (length_le_encode _).trans
  unfold mapNotes
  dsimp only
  split
  · have marked := length_encode_truncateBytes
      (truncateBytes (composeNotes entry attachmentNote) notesMax)
      (notesMax - truncationMarker.length)
    have marker : (encode truncationMarker).length = truncationMarker.length := by decide
    have room : truncationMarker.length ≤ notesMax := by decide
    have cap : notesMax = 65536 := rfl
    rw [encode, List.flatMap_append, List.length_append]
    change (encode (truncateBytes _ _)).length + (encode truncationMarker).length ≤ 65536
    omega
  · exact cut

/-- The history keeps usable passwords in order. -/
theorem mem_mapHistory {password : List UInt8} {room : Nat} {previous : Option (List UInt8)}
    {history : List (List UInt8 × Option Int)} {kept : List UInt8 × Option Int}
    (member : kept ∈ mapHistory password room previous history) :
    Validate.password kept.1 = .ok () := by
  induction history generalizing room previous with
  | nil => cases room <;> cases member
  | cons entry history ih =>
      obtain ⟨bytes, time⟩ := entry
      cases room with
      | zero => cases member
      | succ room =>
          rw [mapHistory] at member
          split at member
          · exact ih member
          · next usable =>
              rcases List.mem_cons.mp member with rfl | later
              · simp only [Bool.or_eq_true, decide_eq_true_eq, not_or] at usable
                obtain ⟨⟨⟨nonempty, -⟩, -⟩, short⟩ := usable
                exact (if_neg nonempty).trans (if_neg short)
              · exact ih later

theorem take_password_valid {value : List UInt8} (nonempty : value ≠ []) :
    Validate.password (value.take passwordMax) = .ok () := by
  have kept : ¬ (value.take passwordMax).isEmpty = true := by
    simp [passwordMax, nonempty]
  have short : ¬ 4096 < (value.take passwordMax).length := by
    rw [List.length_take]
    exact Nat.not_lt.mpr (Nat.min_le_left _ _)
  rw [Validate.password, if_neg kept, if_neg short]

theorem extractTotp_storable {entry : KdbxEntry} {parsed : ParsedTotpSecret}
    (extracted : extractTotp entry = some parsed) : parsed.Storable := by
  unfold extractTotp at extracted
  dsimp only at extracted
  rw [Option.orElse_eq_orElse, Option.orElse_eq_or, Option.or_eq_some_iff] at extracted
  rcases extracted with fromOtp | ⟨-, fromTimeOtp⟩
  · obtain ⟨string, -, found⟩ := Option.bind_eq_some_iff.mp fromOtp
    exact parseTotpSecret_storable found
  · obtain ⟨string, -, found⟩ := Option.bind_eq_some_iff.mp fromTimeOtp
    split at found
    · cases found
    · exact parseOtpauthUri_storable found

/-- An entry with a password that is not blank is mapped. -/
theorem mapEntry_maps {entry : KdbxEntry} (inked : Inked (valStr entry "Password"))
    (attachmentNote : Option Text) (now : Int) :
    ∃ mapped, mapEntry entry attachmentNote now = .ok mapped := by
  have fields : ¬ entry.strings.isEmpty = true := by
    intro none
    obtain ⟨char, member, -⟩ := inked
    rw [valStr, KdbxEntry.field, List.isEmpty_iff.mp none] at member
    cases member
  have shown : ¬ (trim (valStr entry "Password")).isEmpty = true := by
    rw [List.isEmpty_iff]
    exact inked_iff.mp inked
  rw [mapEntry, if_neg fields, if_neg shown]
  exact ⟨_, rfl⟩

/-- The password is the entry's, cut to the cap, and the other fields are within the caps. -/
theorem mapEntry_prepared {entry : KdbxEntry} {attachmentNote : Option Text} {now : Int}
    {mapped : MappedEntry} (maps : mapEntry entry attachmentNote now = .ok mapped) :
    Prepared mapped ∧ ∃ string, entry.field "Password" = some string ∧
      mapped.password = string.value.take passwordMax := by
  unfold mapEntry at maps
  split at maps
  · cases maps
  split at maps
  · cases maps
  next inked =>
  cases Except.ok.inj maps
  obtain ⟨string, found⟩ : ∃ string, entry.field "Password" = some string := by
    cases found : entry.field "Password" with
    | none => simp [valStr, found, trim] at inked
    | some string => exact ⟨string, rfl⟩
  have nonempty : string.value ≠ [] := by
    intro empty
    simp [valStr, found, KdbxStringValue.asStrLossy, empty, decodeLossy, decodeLossyLoop, trim]
      at inked
  have password : (((entry.field "Password").map KdbxStringValue.value).getD []).take passwordMax =
      string.value.take passwordMax := by rw [found]; rfl
  refine ⟨⟨mapDisplayName_inked _ _ _, ⟨_, rfl, mapUsername_inked _⟩, fun tag => mapTags_inked,
    List.length_take_le _ _, fun url => mapUrls_short, List.length_take_le _ _,
    mapNotes_short entry attachmentNote, ?_, fun parsed => extractTotp_storable,
    fun kept => mem_mapHistory⟩, string, found, password⟩
  dsimp only
  rw [password]
  exact take_password_valid nonempty

/-! ## The draft -/

/-- The draft of `ingest_one`, with its first password. -/
def MappedEntry.draft (mapped : MappedEntry) (password : List UInt8) : AccountIdentityDraft where
  displayName := mapped.displayName
  tags := mapped.tags
  usernames := mapped.usernames
  urls := mapped.urls
  notes := mapped.notes
  password
  totpSecret := (mapped.totp.map ParsedTotpSecret.secretBytes).getD []
  totpParams := (mapped.totp.map ParsedTotpSecret.params).getD .default

/-- A name that the store accepts if it is not blank. -/
def Plain (text : Text) (maxChars : Nat) : Prop :=
  text.length ≤ maxChars ∧ hasDisallowedControl text = false

/-- What the importer leaves to the store: lengths after normalisation, control characters,
and URLs that parse. -/
structure Acceptable (tools : TextTools) (mapped : MappedEntry) : Prop where
  displayName : Plain (trim (tools.nfc mapped.displayName)) 256
  tags : ∀ tag ∈ mapped.tags, Plain (trim (tools.nfc tag)) 64
  usernames : ∀ username ∈ mapped.usernames, Plain (tools.nfc (trim username)) 320
  urls : ∀ url ∈ mapped.urls, (tools.parseUrl url).isSome

section

variable {tools : TextTools} {mapped : MappedEntry}

/-- Normalisation makes no text blank. -/
def KeepsInk (tools : TextTools) : Prop := ∀ text, Inked text → Inked (tools.nfc text)

theorem displayName_valid {text : Text} (keepsInk : KeepsInk tools) (inked : Inked text)
    (plain : Plain (trim (tools.nfc text)) 256) :
    Validate.displayName tools text = .ok (trim (tools.nfc text)) := by
  have nonempty : ¬ (trim (tools.nfc text)).isEmpty = true := by
    rw [List.isEmpty_iff]
    exact inked_iff.mp (keepsInk text inked)
  simp only [Validate.displayName, nonempty, if_false, Nat.not_lt.mpr plain.1, plain.2,
    Bool.false_eq_true]

theorem tag_valid {text : Text} (keepsInk : KeepsInk tools) (inked : Inked text)
    (plain : Plain (trim (tools.nfc text)) 64) :
    ∃ lower, Validate.tag tools text = .ok lower := by
  have nonempty : ¬ (trim (tools.nfc text)).isEmpty = true := by
    rw [List.isEmpty_iff]
    exact inked_iff.mp (keepsInk text inked)
  refine ⟨toLowercase tools (trim (tools.nfc text)), ?_⟩
  simp only [Validate.tag, nonempty, if_false, Nat.not_lt.mpr plain.1, plain.2,
    Bool.false_eq_true]

theorem username_valid {text : Text} (inked : Inked text)
    (plain : Plain (tools.nfc (trim text)) 320) :
    Validate.username tools text = .ok (tools.nfc (trim text)) := by
  have nonempty : ¬ (trim text).isEmpty = true := by
    rw [List.isEmpty_iff]
    exact inked_iff.mp inked
  simp only [Validate.username, nonempty, if_false, Nat.not_lt.mpr plain.1, plain.2,
    Bool.false_eq_true]

/-- The tag loop succeeds if each tag does. -/
theorem collectTags_valid {input : List Text}
    (valid : ∀ tag ∈ input, ∃ lower, Validate.tag tools tag = .ok lower) (out : List Text) :
    ∃ texts, Validate.collectTags tools out input = .ok texts := by
  induction input generalizing out with
  | nil => exact ⟨out, rfl⟩
  | cons tag input ih =>
      obtain ⟨lower, made⟩ := valid tag List.mem_cons_self
      obtain ⟨texts, rest⟩ := ih (fun other member => valid other (List.mem_cons_of_mem _ member))
        (if lower ∈ out then out else out ++ [lower])
      refine ⟨texts, ?_⟩
      rw [Validate.collectTags, made]
      exact rest

theorem url_valid (prepared : Prepared mapped) (acceptable : Acceptable tools mapped) {url : Text}
    (member : url ∈ mapped.urls) : ∃ serialised, Validate.url tools url = .ok serialised ∧
      tools.parseUrl url = some serialised := by
  obtain ⟨serialised, parsed⟩ := Option.isSome_iff_exists.mp (acceptable.urls url member)
  refine ⟨serialised, ?_, parsed⟩
  rw [Validate.url, if_neg (Nat.not_lt.mpr (prepared.urls url member)), parsed]

/-- A parsed TOTP secret is within the bounds, and so is none. -/
theorem totp_valid (prepared : Prepared mapped) :
    Validate.totpSecret ((mapped.totp.map ParsedTotpSecret.secretBytes).getD []) = .ok () ∧
      Validate.totpParamsFor ((mapped.totp.map ParsedTotpSecret.secretBytes).getD [])
        ((mapped.totp.map ParsedTotpSecret.params).getD .default) = .ok () := by
  cases totp : mapped.totp with
  | none => exact ⟨rfl, rfl⟩
  | some parsed =>
      obtain ⟨secret, params⟩ := prepared.totp parsed totp
      exact ⟨secret, Validate.totpParamsFor_eq_ok_iff.mpr fun _ => params⟩

/-- A mapped entry whose names are plain and whose URL parses is accepted, with any usable
password. -/
theorem draft_valid (keepsInk : KeepsInk tools) (prepared : Prepared mapped)
    (acceptable : Acceptable tools mapped) {password : List UInt8}
    (usable : Validate.password password = .ok ()) (nowMs : Int) (device : Crypto.DeviceId) :
    ∃ identity, (mapped.draft password).validateIntoIdentity tools nowMs device =
      .ok identity := by
  have displayName := displayName_valid keepsInk prepared.displayName acceptable.displayName
  obtain ⟨tags, tagged⟩ := collectTags_valid
    (fun tag member => tag_valid keepsInk (prepared.tags tag member) (acceptable.tags tag member)) []
  have validTags : Validate.tags tools mapped.tags = .ok tags := by
    rw [Validate.tags, if_neg (Nat.not_lt.mpr prepared.fewTags)]
    exact tagged
  obtain ⟨username, named, inked⟩ := prepared.usernames
  have validName := username_valid inked (acceptable.usernames username (by simp [named]))
  have validNames : Validate.usernames tools mapped.usernames =
      .ok [tools.nfc (trim username)] := by
    have made : [username].mapM (Validate.username tools) = .ok [tools.nfc (trim username)] := by
      rw [List.mapM_cons, validName]
      rfl
    rw [named]
    exact made
  obtain ⟨urls, parsed, -⟩ := Fallible.exists_mapM_ok
    fun url member => url_valid prepared acceptable member
  have validUrls : Validate.urls tools mapped.urls = .ok urls := by
    rw [Validate.urls, if_neg (Nat.not_lt.mpr prepared.fewUrls)]
    exact parsed
  have validNotes : Validate.notes mapped.notes = .ok mapped.notes := by
    rw [Validate.notes, if_neg (Nat.not_lt.mpr prepared.notes)]
  obtain ⟨validSecret, validParams⟩ := totp_valid prepared
  simp only [AccountIdentityDraft.validateIntoIdentity, MappedEntry.draft, displayName, validTags,
    validNames, validUrls, validNotes, usable, validSecret, validParams, bind, Except.bind]
  exact ⟨_, rfl⟩

/-- A valid draft begins its history with its password. -/
theorem validate_passwordHistory {draft : AccountIdentityDraft} {nowMs : Int}
    {device : Crypto.DeviceId} {identity : AccountIdentity}
    (valid : draft.validateIntoIdentity tools nowMs device = .ok identity) :
    identity.passwordHistory = [⟨draft.password, nowMs, device⟩] := by
  obtain ⟨displayName, -, rest⟩ := Fallible.bind_eq_ok_iff.mp valid
  obtain ⟨tags, -, rest⟩ := Fallible.bind_eq_ok_iff.mp rest
  obtain ⟨usernames, -, rest⟩ := Fallible.bind_eq_ok_iff.mp rest
  obtain ⟨urls, -, rest⟩ := Fallible.bind_eq_ok_iff.mp rest
  obtain ⟨notes, -, rest⟩ := Fallible.bind_eq_ok_iff.mp rest
  obtain ⟨-, -, rest⟩ := Fallible.bind_eq_ok_iff.mp rest
  obtain ⟨-, -, rest⟩ := Fallible.bind_eq_ok_iff.mp rest
  obtain ⟨-, -, rest⟩ := Fallible.bind_eq_ok_iff.mp rest
  cases Except.ok.inj rest
  rfl

end

end Pangolin.Kdbx
