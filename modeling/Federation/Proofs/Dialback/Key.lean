import Federation.Dialback.Key
import Federation.Proofs.Domain.Transparency

/-!
What a key binds. A key is a digest in hexadecimal digits, so no blank that is put around it changes
it. The text that it authenticates can be taken apart again: no domain holds a space, in whatever
spelling it is accepted, so the first two spaces are the ones between the parts, and a stream id may
hold any others. Unless the hash functions give the same digest for different inputs, a key is
therefore the key of one pair of domains, one secret and one stream.
-/

namespace Federation

namespace Text

theorem hexDigit_mod (n : Nat) : hexDigit (n % 16) = hexDigit n := by
  simp only [hexDigit, Nat.mod_mod]

theorem hexDigit_mem (n : Nat) : hexDigit n ∈ "0123456789abcdef".toList := by
  have hdigits : ∀ d : Fin 16, hexDigit d ∈ "0123456789abcdef".toList := by decide
  rw [← hexDigit_mod]
  exact hdigits ⟨n % 16, Nat.mod_lt n (by decide)⟩

theorem mod_eq_of_hexDigit_eq {m n : Nat} (h : hexDigit m = hexDigit n) : m % 16 = n % 16 := by
  have hdigits : ∀ d e : Fin 16, hexDigit d = hexDigit e → d = e := by decide
  rw [← hexDigit_mod m, ← hexDigit_mod n] at h
  exact congrArg Fin.val
    (hdigits ⟨m % 16, Nat.mod_lt m (by decide)⟩ ⟨n % 16, Nat.mod_lt n (by decide)⟩ h)

theorem mem_hexPadded {width n : Nat} {c : Char} (h : c ∈ hexPadded width n) :
    c ∈ "0123456789abcdef".toList := by
  induction width generalizing n with
  | zero => cases h
  | succ width ih =>
    rcases List.mem_append.mp h with hrest | hlast
    · exact ih hrest
    · rw [List.mem_singleton.mp hlast]
      exact hexDigit_mem n

/-- As many digits as are written determine a number. -/
theorem eq_of_hexPadded_eq {width m n : Nat} (hm : m < Nat.pow 16 width) (hn : n < Nat.pow 16 width)
    (h : hexPadded width m = hexPadded width n) : m = n := by
  induction width generalizing m n with
  | zero =>
    have hone : Nat.pow 16 0 = 1 := rfl
    omega
  | succ width ih =>
    obtain ⟨hfront, hlast⟩ := List.append_inj' h rfl
    have hdigit := mod_eq_of_hexDigit_eq (List.cons.inj hlast).1
    have hrest := ih (Nat.div_lt_of_lt_mul (Nat.lt_of_lt_of_eq hm (Nat.mul_comm _ _)))
      (Nat.div_lt_of_lt_mul (Nat.lt_of_lt_of_eq hn (Nat.mul_comm _ _))) hfront
    omega

theorem mem_hexBytes {bytes : List UInt8} {c : Char} (h : c ∈ hexBytes bytes) :
    c ∈ "0123456789abcdef".toList := by
  obtain ⟨b, -, hdigit⟩ := List.mem_flatMap.mp h
  exact mem_hexPadded hdigit

theorem hexBytes_injective : Function.Injective hexBytes := by
  intro xs ys h
  have hlength : xs.length = ys.length := by
    have hdigits := congrArg List.length h
    rw [length_hexBytes, length_hexBytes] at hdigits
    omega
  induction xs generalizing ys with
  | nil => exact (List.length_eq_zero_iff.mp hlength.symm).symm
  | cons x xs ih =>
    cases ys with
    | nil => cases hlength
    | cons y ys =>
      rw [hexBytes, hexBytes, List.flatMap_cons, List.flatMap_cons] at h
      obtain ⟨hbyte, hrest⟩ := List.append_inj h
        ((length_hexPadded 2 x.toNat).trans (length_hexPadded 2 y.toNat).symm)
      have hvalue : x.toNat = y.toNat := by
        refine eq_of_hexPadded_eq ?_ ?_ hbyte
        · exact x.toNat_lt
        · exact y.toNat_lt
      rw [UInt8.toNat_inj.mp hvalue, ih hrest (Nat.succ.inj hlength)]

/-- No hexadecimal digit is a blank. -/
theorem isBlank_of_mem_hexBytes {c : Char} {bytes : List UInt8} (h : c ∈ hexBytes bytes) :
    isBlank c = false := by
  have hdigits : "0123456789abcdef".toList.all (isBlank · = false) := by decide
  simpa using List.all_eq_true.mp hdigits c (mem_hexBytes h)

/-- What is left when blanks are dropped stood between blanks. -/
theorem exists_blanks (cs : List Char) :
    ∃ before after, (∀ c ∈ before ++ after, isBlank c) ∧ cs = before ++ trimChars cs ++ after := by
  refine ⟨cs.takeWhile isBlank, ((cs.dropWhile isBlank).reverse.takeWhile isBlank).reverse, ?_, ?_⟩
  · intro c hc
    rcases List.mem_append.mp hc with hbefore | hafter
    · exact List.mem_takeWhile_imp hbefore
    · exact List.mem_takeWhile_imp (List.mem_reverse.mp hafter)
  · rw [List.append_assoc, trimChars, ← List.reverse_append, List.takeWhile_append_dropWhile,
      List.reverse_reverse, List.takeWhile_append_dropWhile]

/-- Between blanks stands what holds none. -/
theorem trimChars_append {before cs after : List Char} (hblank : ∀ c ∈ before ++ after, isBlank c)
    (hcs : ∀ c ∈ cs, isBlank c = false) : trimChars (before ++ cs ++ after) = cs := by
  obtain ⟨hbefore, hafter⟩ := List.forall_mem_append.mp hblank
  have hdrop : ∀ {blanks rest : List Char}, (∀ c ∈ blanks, isBlank c) →
      (blanks ++ rest).dropWhile isBlank = rest.dropWhile isBlank :=
    List.dropWhile_append_of_pos
  have hkeep : ∀ {ds : List Char}, (∀ c ∈ ds, isBlank c = false) → ds.dropWhile isBlank = ds :=
    fun hds => dropWhile_isBlank_eq_self fun c hc => hds c (List.mem_of_mem_head? hc)
  rw [trimChars, List.append_assoc, hdrop hbefore]
  cases cs with
  | nil => rw [List.nil_append, List.dropWhile_eq_nil_iff.mpr hafter]; rfl
  | cons c rest =>
    have hfront : (c :: rest ++ after).dropWhile isBlank = c :: rest ++ after :=
      dropWhile_isBlank_eq_self fun d hd => by
        obtain rfl : c = d := by simpa using hd
        exact hcs c List.mem_cons_self
    rw [hfront, List.reverse_append, hdrop fun d hd => hafter d (List.mem_reverse.mp hd),
      hkeep fun d hd => hcs d (List.mem_reverse.mp hd), List.reverse_reverse]

theorem trimChars_eq_self {cs : List Char} (h : ∀ c ∈ cs, isBlank c = false) :
    trimChars cs = cs := by
  have hblank : ∀ c ∈ ([] ++ [] : List Char), isBlank c := by simp
  simpa using trimChars_append hblank h

end Text

namespace Digest

/-- Two inputs are not a collision: they have one image only if they are the same. -/
def NoCollision {α β : Type} (f : α → β) (x y : α) : Prop :=
  f x = f y → x = y

def innerInput (key message : List UInt8) : List UInt8 :=
  (keyBlock key).map (· ^^^ 0x36) ++ message

def outerInput (key message : List UInt8) : List UInt8 :=
  (keyBlock key).map (· ^^^ 0x5c) ++ sha256 (innerInput key message)

theorem keyBlock_eq_self {key : List UInt8} (h : key.length = blockBytes) : keyBlock key = key := by
  simp [keyBlock, h]

/-- Under keys of one block, a collision of the authentication code is one of the hash. -/
theorem noCollision_hmac {key message key' message' : List UInt8} (hkey : key.length = blockBytes)
    (hkey' : key'.length = blockBytes)
    (hinner : NoCollision sha256 (innerInput key message) (innerInput key' message'))
    (houter : NoCollision sha256 (outerInput key message) (outerInput key' message')) :
    NoCollision (Function.uncurry hmac) (key, message) (key', message') := by
  intro h
  have hinputs : outerInput key message = outerInput key' message' := houter h
  have hpads : ∀ pad : UInt8, (key.map (· ^^^ pad)).length = (key'.map (· ^^^ pad)).length := by
    simp [hkey, hkey']
  rw [outerInput, outerInput, keyBlock_eq_self hkey, keyBlock_eq_self hkey'] at hinputs
  have hsame := hinner (List.append_inj hinputs (hpads 0x5c)).2
  rw [innerInput, innerInput, keyBlock_eq_self hkey, keyBlock_eq_self hkey'] at hsame
  obtain ⟨hpadded, hmessage⟩ := List.append_inj hsame (hpads 0x36)
  have hxor : ∀ a b : UInt8, a ^^^ 0x36 = b ^^^ 0x36 → a = b := fun a b hab => by simpa using hab
  rw [(List.map_inj_right hxor).mp hpadded, hmessage]

end Digest

namespace Domain

open Federation.Text

/-- In whatever spelling a domain is accepted, it holds no space. -/
theorem space_not_mem {domain name : String} (h : normalize domain = .ok name) :
    ' ' ∉ domain.toList := by
  intro hmem
  have hblank := (isInert_of_normalize h).isBlank_eq ' '
    (mem_of_normalize h rfl (by decide) hmem)
  cases hblank

end Domain

namespace Key

open Federation.Text Federation.Digest

theorem utf8Bytes_injective : Function.Injective utf8Bytes := by
  intro s t h
  have hbytes : s.toByteArray.data = t.toByteArray.data := Array.toList_inj.mp h
  exact String.toByteArray_inj.mp (ByteArray.ext hbytes)

theorem length_utf8Bytes_digestText (secret : String) :
    (utf8Bytes (String.ofList (digestText secret))).length = blockBytes := by
  have hbytes : ∀ cs : List Char, (∀ c ∈ cs, c.utf8Size = 1) → byteLength cs = cs.length := by
    intro cs
    induction cs with
    | nil => exact fun _ => rfl
    | cons c rest ih =>
      intro h
      obtain ⟨hc, hrest⟩ := List.forall_mem_cons.mp h
      rw [byteLength, hc, ih hrest, List.length_cons, Nat.add_comm]
  have hdigits : "0123456789abcdef".toList.all (·.utf8Size = 1) := by decide
  have hsizes : ∀ c ∈ digestText secret, c.utf8Size = 1 := fun c hc => by
    simpa using List.all_eq_true.mp hdigits c (mem_hexBytes hc)
  have hsize : (String.ofList (digestText secret)).utf8ByteSize = 64 := by
    rw [← byteLength_toList, String.toList_ofList, hbytes _ hsizes, digestText, length_hexBytes,
      length_sha256]
  exact hsize

def IsDigest (key : String) : Prop :=
  key.toList.length = 64 ∧ ∀ c ∈ key.toList, c ∈ "0123456789abcdef".toList

theorem isDigest_derive (sending receiving secret streamId : String) :
    IsDigest (derive sending receiving secret streamId) := by
  refine ⟨length_derive sending receiving secret streamId, fun c hc => ?_⟩
  rw [derive, String.toList_ofList] at hc
  exact mem_hexBytes hc

theorem isBlank_of_mem_derive {sending receiving secret streamId : String} {c : Char}
    (hc : c ∈ (derive sending receiving secret streamId).toList) : isBlank c = false := by
  rw [derive, String.toList_ofList] at hc
  exact isBlank_of_mem_hexBytes hc

/-- Nothing is lost of a key when blanks around it are dropped. -/
theorem trim_derive (sending receiving secret streamId : String) :
    trim (derive sending receiving secret streamId) = derive sending receiving secret streamId := by
  rw [trim, trimChars_eq_self fun _ => isBlank_of_mem_derive, String.ofList_toList]

theorem derive_ne_empty (sending receiving secret streamId : String) :
    derive sending receiving secret streamId ≠ "" := by
  intro h
  have hlength := length_derive sending receiving secret streamId
  rw [h] at hlength
  cases hlength

/-- A presented text is taken for a key just if it is the key with blanks around it. -/
theorem trim_eq_derive_iff (sending receiving secret streamId text : String) :
    trim text = derive sending receiving secret streamId ↔
      ∃ before after, (∀ c ∈ before ++ after, isBlank c) ∧
        text.toList = before ++ (derive sending receiving secret streamId).toList ++ after := by
  constructor
  · intro h
    rw [← h, toList_trim]
    exact exists_blanks text.toList
  · rintro ⟨before, after, hblank, htext⟩
    rw [trim, htext, trimChars_append hblank fun _ => isBlank_of_mem_derive, String.ofList_toList]

theorem accepts_iff (key text : String) : accepts key text ↔ trim text = key := by
  rw [accepts, beq_iff_eq, eq_comm]

/-- The parts of the material can be told apart, whatever the stream ids hold. -/
theorem material_inj {sending receiving streamId sending' receiving' streamId' : String}
    (hsending : ' ' ∉ sending.toList) (hreceiving : ' ' ∉ receiving.toList)
    (hsending' : ' ' ∉ sending'.toList) (hreceiving' : ' ' ∉ receiving'.toList)
    (h : material sending receiving streamId = material sending' receiving' streamId') :
    receiving = receiving' ∧ sending = sending' ∧ streamId = streamId' := by
  have hchars : receiving.toList ++ ' ' :: (sending.toList ++ ' ' :: streamId.toList) =
      receiving'.toList ++ ' ' :: (sending'.toList ++ ' ' :: streamId'.toList) := by
    simpa [material] using congrArg String.toList h
  have hsplit : ∀ {xs ys rest rest' : List Char}, ' ' ∉ xs → ' ' ∉ ys →
      xs ++ ' ' :: rest = ys ++ ' ' :: rest' → xs = ys ∧ ' ' :: rest = ' ' :: rest' := by
    intro xs ys rest rest' hxs hys heq
    have hordinary : ∀ {zs : List Char}, ' ' ∉ zs → ∀ c ∈ zs, c ≠ ' ' :=
      fun hzs c hc hspace => hzs (hspace ▸ hc)
    exact Element.append_stop_inj (hordinary hxs) (hordinary hys) (by simp) (by simp) heq
  obtain ⟨hfirst, hrest⟩ := hsplit hreceiving hreceiving' hchars
  obtain ⟨hsecond, hlast⟩ := hsplit hsending hsending' (List.cons.inj hrest).2
  exact ⟨String.toList_injective hfirst, String.toList_injective hsecond,
    String.toList_injective (List.cons.inj hlast).2⟩

structure Inputs where
  sending : String
  receiving : String
  secret : String
  streamId : String
  deriving DecidableEq

namespace Inputs

structure Accepted (x : Inputs) : Prop where
  sending : ∃ name, Domain.normalize x.sending = .ok name
  receiving : ∃ name, Domain.normalize x.receiving = .ok name

theorem Accepted.space_not_mem {x : Inputs} (h : x.Accepted) :
    ' ' ∉ x.sending.toList ∧ ' ' ∉ x.receiving.toList := by
  obtain ⟨⟨_, hsending⟩, ⟨_, hreceiving⟩⟩ := h
  exact ⟨Domain.space_not_mem hsending, Domain.space_not_mem hreceiving⟩

def material (x : Inputs) : String :=
  Key.material x.sending x.receiving x.streamId

def authenticated (x : Inputs) : List UInt8 × List UInt8 :=
  (utf8Bytes (String.ofList (digestText x.secret)), utf8Bytes x.material)

def key (x : Inputs) : String :=
  derive x.sending x.receiving x.secret x.streamId

/-- The digest of the secret fills one block, so two codes collide only if the hash does. -/
theorem noCollision_authenticated {x y : Inputs}
    (hinner : NoCollision sha256 (innerInput x.authenticated.1 x.authenticated.2)
      (innerInput y.authenticated.1 y.authenticated.2))
    (houter : NoCollision sha256 (outerInput x.authenticated.1 x.authenticated.2)
      (outerInput y.authenticated.1 y.authenticated.2)) :
    NoCollision (Function.uncurry hmac) x.authenticated y.authenticated :=
  noCollision_hmac (length_utf8Bytes_digestText x.secret) (length_utf8Bytes_digestText y.secret)
    hinner houter

end Inputs

/-- The text that a key authenticates determines both domains and the stream, and the key determines
the secret as well, unless the hash functions collide on what they are given for the two keys. Every
key is a digest, and it is accepted just in the texts that are the key with blanks around it. -/
theorem key_binds_inputs :
    (∀ x y : Inputs, x.Accepted → y.Accepted →
      (x.material = y.material →
        x.receiving = y.receiving ∧ x.sending = y.sending ∧ x.streamId = y.streamId) ∧
      (NoCollision sha256 (utf8Bytes x.secret) (utf8Bytes y.secret) →
        NoCollision (Function.uncurry hmac) x.authenticated y.authenticated →
        x.key = y.key → x = y)) ∧
    ∀ x : Inputs, IsDigest x.key ∧ ∀ text, (accepts x.key text ↔ trim text = x.key) ∧
      (trim text = x.key ↔ ∃ before after, (∀ c ∈ before ++ after, isBlank c) ∧
        text.toList = before ++ x.key.toList ++ after) := by
  refine ⟨fun x y hx hy => ?_, fun x => ⟨isDigest_derive _ _ _ _, fun text =>
    ⟨accepts_iff x.key text, trim_eq_derive_iff _ _ _ _ text⟩⟩⟩
  have hmaterial : x.material = y.material →
      x.receiving = y.receiving ∧ x.sending = y.sending ∧ x.streamId = y.streamId :=
    material_inj hx.space_not_mem.1 hx.space_not_mem.2 hy.space_not_mem.1 hy.space_not_mem.2
  refine ⟨hmaterial, fun hsecrets hmacs hkeys => ?_⟩
  -- From the key inwards: its digits, the code, and then what the code was taken of.
  have hcodes := hexBytes_injective (String.ofList_injective hkeys)
  obtain ⟨hhashed, hmessages⟩ := Prod.mk.inj (hmacs hcodes)
  obtain ⟨hreceiving, hsending, hstream⟩ := hmaterial (utf8Bytes_injective hmessages)
  have hdigests := hexBytes_injective (String.ofList_injective (utf8Bytes_injective hhashed))
  have hsecret := utf8Bytes_injective (hsecrets hdigests)
  obtain ⟨sending, receiving, secret, streamId⟩ := x
  simp only at hreceiving hsending hstream hsecret
  rw [hreceiving, hsending, hstream, hsecret]

/-- The same words at other places make another key, on streams whose ids hold spaces. -/
theorem key_binds_inputs_of_spaced_stream_id :
    let x : Inputs := ⟨"A.example.", "b.example", "secret", "c.example d"⟩
    let y : Inputs := ⟨"c.example", "b.example", "secrets", "A.example. d"⟩
    (x.Accepted ∧ y.Accepted ∧ NoCollision sha256 (utf8Bytes x.secret) (utf8Bytes y.secret) ∧
      NoCollision (Function.uncurry hmac) x.authenticated y.authenticated) ∧
    x.material ≠ y.material ∧ x.key ≠ y.key := by
  intro x y
  have hx : x.Accepted := ⟨⟨"a.example", by decide +kernel⟩, ⟨"b.example", by decide +kernel⟩⟩
  have hy : y.Accepted := ⟨⟨"c.example", by decide +kernel⟩, ⟨"b.example", by decide +kernel⟩⟩
  have hdistinct : ∀ {a b : List UInt8}, sha256 a ≠ sha256 b → NoCollision sha256 a b :=
    fun hne heq => absurd heq hne
  have hsecrets : NoCollision sha256 (utf8Bytes x.secret) (utf8Bytes y.secret) :=
    hdistinct (by decide +kernel)
  have hcodes : NoCollision (Function.uncurry hmac) x.authenticated y.authenticated :=
    Inputs.noCollision_authenticated (hdistinct (by decide +kernel)) (hdistinct (by decide +kernel))
  obtain ⟨hmaterial, hkey⟩ := key_binds_inputs.1 x y hx hy
  refine ⟨⟨hx, hy, hsecrets, hcodes⟩, fun h => ?_, fun h => ?_⟩
  · exact absurd (hmaterial h).2.1 (by decide)
  · exact absurd (hkey hsecrets hcodes h) (by decide)

end Key

end Federation
