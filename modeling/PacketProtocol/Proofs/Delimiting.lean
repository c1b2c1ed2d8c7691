import Mathlib
import PacketProtocol.Proofs.Keys
/-!
# Where a parser stops

`p.Delimits post`: what the parser accepts stands at the front of its input, is read from there whatever
comes behind, and `post` holds of what it gives. A chain of parsers that delimit is one that delimits, so
each reader of a record is dealt with once, as it is built.

Of what readers of records give it says that applications could have declared it, and that it can be
written again, with one exception: the least integer that a varint unfolds to has no signed varint.
-/

namespace PacketProtocol

/-! ## Parsers that delimit -/

namespace Parser

variable {α β : Type}

/-- What the parser accepts it reads from the front of its input, whatever comes behind, and it has a
property. -/
def Delimits (p : Parser α) (post : α → Prop) : Prop :=
  ∀ bytes a rest, p bytes = .ok (a, rest) → post a ∧ ∃ front, bytes = front ++ rest ∧ p.Reads front a

namespace Delimits

variable {p : Parser α} {f : α → Parser β} {post post' : α → Prop} {postB : β → Prop}

theorem pure {a : α} (h : post a) : Delimits (Pure.pure a) post := by
  intro bytes a' rest hread
  cases hread
  exact ⟨h, [], rfl, .pure a⟩

theorem fail (fault : DecodeFault) : (Parser.fail fault).Delimits post := nofun

theorem bind (hp : p.Delimits post) (hf : ∀ a, post a → (f a).Delimits postB) : (p >>= f).Delimits postB := by
  intro bytes b rest hread
  obtain ⟨⟨a, middle⟩, ha, hb⟩ := Outcome.bind_eq_ok.1 hread
  obtain ⟨hpost, front, rfl, hfront⟩ := hp _ _ _ ha
  obtain ⟨hpostB, back, rfl, hback⟩ := hf a hpost _ _ _ hb
  exact ⟨hpostB, front ++ back, (List.append_assoc _ _ _).symm, hfront.bind hback⟩

theorem map {f : α → β} (hp : p.Delimits post) (hf : ∀ a, post a → postB (f a)) : (f <$> p).Delimits postB := by
  intro bytes b rest hread
  obtain ⟨⟨a, middle⟩, ha, hb⟩ := Outcome.bind_eq_ok.1 hread
  cases hb
  obtain ⟨hpost, front, hbytes, hfront⟩ := hp _ _ _ ha
  exact ⟨hf a hpost, front, hbytes, hfront.map f⟩

theorem weaken (hp : p.Delimits post) (h : ∀ a, post a → post' a) : p.Delimits post' :=
  fun bytes a rest hread => (hp bytes a rest hread).imp_left (h a)

/-- A parser of so many entries delimits if the parser of one does. -/
theorem entries {entry : Parser α} (repeated : Nat → Parser (List α)) (hzero : repeated 0 = Pure.pure [])
    (hsucc : ∀ count, repeated (count + 1) = entry >>= fun a => repeated count >>= fun as => Pure.pure (a :: as))
    (hentry : entry.Delimits post) (count : Nat) :
    (repeated count).Delimits fun as => as.length = count ∧ ∀ a ∈ as, post a := by
  induction count with
  | zero => exact hzero ▸ .pure ⟨rfl, nofun⟩
  | succ count ih =>
    rw [hsucc]
    refine hentry.bind fun a ha => ih.bind fun as has => .pure ⟨congrArg Nat.succ has.1, ?_⟩
    simp only [List.mem_cons, forall_eq_or_imp]
    exact ⟨ha, has.2⟩

end Delimits

theorem octet_delimits : octet.Delimits fun _ => True := by
  intro bytes o rest hread
  cases bytes with
  | nil => cases hread
  | cons octet tail =>
    cases hread
    exact ⟨trivial, [o], rfl, octet_reads o⟩

theorem take_delimits (count : Nat) : (take count).Delimits fun bytes => bytes.length = count := by
  intro bytes front rest hread
  unfold take at hread
  split at hread
  · rename_i hle
    cases hread
    have hlength : (bytes.take count).length = count := List.length_take_of_le hle
    refine ⟨hlength, bytes.take count, (List.take_append_drop count bytes).symm, ?_⟩
    have hread := take_reads (bytes.take count)
    rwa [hlength] at hread
  · cases hread

end Parser

theorem Utf8.encode_of_decode {bytes : Bytes} {text : String} (h : decode bytes = some text) : encode text = bytes := by
  unfold decode String.fromUTF8? at h
  split at h
  · cases h
    rfl
  · cases h

theorem Varint.decodeWithin_delimits (room : Nat) :
    Parser.Delimits (decodeWithin room) fun n => n < 128 ^ room := by
  induction room with
  | zero => exact nofun
  | succ room ih =>
    intro bytes n rest hread
    cases bytes with
    | nil => cases hread
    | cons octet tail =>
      rw [decodeWithin] at hread
      split at hread
      · rename_i hlast
        cases hread
        refine ⟨?_, [octet], rfl, fun rest => by rw [List.singleton_append, decodeWithin, if_pos hlast]⟩
        exact Nat.lt_of_lt_of_le hlast (Nat.le_self_pow (Nat.succ_ne_zero room) 128)
      · rename_i hmarked
        split at hread
        · cases hread
        · rename_i high rest' htail
          cases hread
          obtain ⟨hhigh, front, rfl, hfront⟩ := ih _ _ _ htail
          refine ⟨?_, octet :: front, rfl, fun rest => ?_⟩
          · rw [Nat.pow_succ]
            omega
          · rw [List.cons_append, decodeWithin, if_neg hmarked, hfront rest]

/-- The least integer that a varint unfolds to. It has no signed varint. -/
def ZigZag.lowest : Int := -bound

theorem ZigZag.unfold_range {n : Nat} (h : n < Varint.bound) : lowest ≤ unfold n ∧ unfold n < bound := by
  simp only [Varint.bound, lowest, bound, unfold] at h ⊢
  split <;> omega

namespace Parser

theorem varint_delimits : varint.Delimits fun n => n < Varint.bound :=
  (Varint.decodeWithin_delimits Varint.maxUnits).weaken fun _ h => Varint.bound_eq ▸ h

theorem word_delimits : word.Delimits fun _ => True := by
  refine varint_delimits.bind fun n _ => ?_
  split
  · exact .pure trivial
  · exact .fail _

theorem signedVarint_delimits : signedVarint.Delimits fun n => ZigZag.lowest ≤ n ∧ n < ZigZag.bound :=
  varint_delimits.bind fun _ hn => .pure (ZigZag.unfold_range hn)

theorem utf8_delimits (count : Nat) : (utf8 count).Delimits fun text => text.utf8ByteSize = count := by
  refine (take_delimits count).bind fun bytes hlength => ?_
  split
  · rename_i text htext
    obtain rfl := Utf8.encode_of_decode htext
    exact .pure hlength
  · exact .fail _

theorem text_delimits : Parser.text.Delimits fun text => text.utf8ByteSize < Varint.bound :=
  varint_delimits.bind fun count hcount => (utf8_delimits count).weaken fun _ htext => htext ▸ hcount

theorem shortText_delimits : shortText.Delimits fun _ => True :=
  octet_delimits.bind fun _ _ => (utf8_delimits _).weaken fun _ _ => trivial

end Parser

/-! ## Enum packages -/

namespace EnumPackage

/-- The member can be written, in whatever package, unless it is the integer without a signed varint. -/
def Rewritable (member : Value) : Prop :=
  ∀ tag, (∃ bytes, writeMember tag member = .ok bytes) ↔ member ≠ .int (.ofInt ZigZag.lowest)

theorem rewritable_of_write {member : Value} (h : ∀ tag, ∃ bytes, writeMember tag member = .ok bytes)
    (hne : member ≠ .int (.ofInt ZigZag.lowest)) : Rewritable member :=
  fun tag => iff_of_true (h tag) hne

theorem rewritable_int {n : Int} (hlow : ZigZag.lowest ≤ n) (hhigh : n < ZigZag.bound) :
    Rewritable (.int (.ofInt n)) := by
  intro tag
  have hn : (Int64.ofInt n).toInt = n := by
    simp only [ZigZag.lowest, ZigZag.bound] at hlow hhigh
    rw [Int64.toInt_ofInt_of_le] <;> omega
  have hlowest : (.int (.ofInt n) : Value) = .int (.ofInt ZigZag.lowest) ↔ n = ZigZag.lowest := by
    refine ⟨fun h => ?_, fun h => by rw [h]⟩
    have hsame := congrArg Int64.toInt (Value.int.inj h)
    rwa [hn] at hsame
  rw [Ne, hlowest, writeMember, hn]
  constructor
  · rintro ⟨bytes, hbytes⟩ rfl
    obtain ⟨octets, hoctets, -⟩ := Outcome.bind_eq_ok.1 hbytes
    exact absurd (ZigZag.encode_eq_ok.1 hoctets).1 (by decide)
  · intro hne
    have hsmall : n.natAbs < ZigZag.bound := by
      simp only [ZigZag.lowest] at hlow hne
      omega
    exact ⟨_, Outcome.bind_eq_ok.2 ⟨_, ZigZag.encode_eq_ok.2 ⟨hsmall, rfl⟩, rfl⟩⟩

theorem memberParser_delimits : memberParser.Delimits Rewritable := by
  refine Parser.octet_delimits.bind fun code _ => ?_
  split
  · exact .pure (rewritable_of_write (fun _ => ⟨_, rfl⟩) nofun)
  · exact .pure (rewritable_of_write (fun _ => ⟨_, rfl⟩) nofun)
  · exact .pure (rewritable_of_write (fun _ => ⟨_, rfl⟩) nofun)
  · exact .pure (rewritable_of_write (fun _ => ⟨_, rfl⟩) nofun)
  · exact Parser.signedVarint_delimits.bind fun n hn => .pure (rewritable_int hn.1 hn.2)
  · exact (Parser.take_delimits 8).bind fun _ _ => .pure (rewritable_of_write (fun _ => ⟨_, rfl⟩) nofun)
  · refine Parser.text_delimits.bind fun text hlength => .pure (rewritable_of_write (fun tag => ?_) nofun)
    exact ⟨_, Outcome.bind_eq_ok.2 ⟨_, Varint.encode_of_lt hlength, rfl⟩⟩
  · exact .fail _

theorem parser_delimits :
    parser.Delimits fun package => package.Declared ∧ ∀ member ∈ package.members, Rewritable member := by
  refine Parser.shortText_delimits.bind fun tag _ => Parser.octet_delimits.bind fun count _ => ?_
  refine (Parser.Delimits.entries membersParser rfl (fun _ => rfl) memberParser_delimits count.toNat).bind
    fun members hmembers => ?_
  split
  · rename_i package hmake
    obtain ⟨rfl, -⟩ := make_eq_ok.1 hmake
    exact .pure ⟨⟨tag, members, hmake⟩, hmembers.2⟩
  · exact .fail _

end EnumPackage

/-! ## Kinds -/

namespace PayloadKind

/-- The members of an enum kind's package. -/
def members : PayloadKind → List Value
  | enum package => package.members
  | _ => []

theorem parser_delimits :
    parser.Delimits fun kind => kind.Declared ∧ ∀ member ∈ kind.members, EnumPackage.Rewritable member := by
  refine Parser.octet_delimits.bind fun code _ => ?_
  split
  case h_8 => exact EnumPackage.parser_delimits.bind fun package hpackage => .pure hpackage
  case h_10 => exact .fail _
  all_goals exact .pure ⟨trivial, nofun⟩

end PayloadKind

/-! ## Packets -/

namespace Packet

/-- The enum members of all slots. -/
def members (packet : Packet) : List Value := packet.schema.slots.flatMap fun slot => slot.kind.members

/-- What is known of a packet that was read from a record. -/
structure OfRecord (packet : Packet) : Prop where
  declared : packet.Declared
  validator : packet.validator = none
  members : ∀ member ∈ packet.members, EnumPackage.Rewritable member

theorem schemaOf_eq_ok {isObject : Bool} {kinds : List PayloadKind} {bounds : List (UInt32 × UInt32)} {schema : Schema}
    (hkinds : ∀ kind ∈ kinds, kind.Declared) (hlength : kinds.length = bounds.length)
    (h : schemaOf isObject kinds bounds = .ok schema) :
    schema.Declared ∧ ∀ slot ∈ schema.slots, slot.kind ∈ kinds := by
  unfold schemaOf at h
  split at h
  · rename_i kind _ min max _
    refine ⟨.single (hkinds kind List.mem_cons_self) h, ?_⟩
    have hslots : ∃ slot : Slot, slot.kind = kind ∧ schema.slots = [slot] := by
      unfold Schema.single at h
      -- the bounds are those asked for, or zero
      generalize (if kind.isNone then (0, 0) else (min, max)) = bounds at h
      obtain ⟨min, max⟩ := bounds
      dsimp only at h
      split at h
      · cases h
      · cases h
        exact ⟨_, rfl, rfl⟩
    obtain ⟨slot, rfl, hslots⟩ := hslots
    simp [hslots]
  · cases h
  · refine ⟨.object hkinds h, ?_⟩
    have hslots : schema.slots.map Slot.kind = kinds := by
      unfold Schema.object at h
      split at h
      · cases h
      · split at h
        · cases h
        · obtain ⟨slots, hmade, h⟩ := Outcome.bind_eq_ok.1 h
          cases h
          exact ((Schema.makeSlots_eq_ok (by simpa using hlength) (by simpa using hlength)).1 hmade).1
    exact fun slot hslot => hslots ▸ List.mem_map_of_mem hslot

theorem required_delimits {α : Type} {outcome : Result α} : (required outcome).Delimits fun a => outcome = .ok a := by
  cases outcome with
  | ok a => exact .pure rfl
  | error error => exact .fail _

theorem countParser_delimits (isObject : Bool) : (countParser isObject).Delimits fun _ => True := by
  unfold countParser
  split
  · exact Parser.word_delimits.map fun _ _ => trivial
  · exact .pure trivial

theorem boundsParser_delimits (count : Nat) : (boundsParser count).Delimits fun bounds => bounds.length = count := by
  have hentry : Parser.Delimits (do let min ← Parser.word; let max ← Parser.word; return (min, max)) fun _ => True :=
    Parser.word_delimits.bind fun _ _ => Parser.word_delimits.bind fun _ _ => .pure trivial
  exact (Parser.Delimits.entries boundsParser rfl (fun count => by simp [boundsParser]) hentry count).weaken
    fun _ h => h.1

theorem kindsParser_delimits (count : Nat) :
    (kindsParser count).Delimits fun kinds => kinds.length = count ∧
      ∀ kind ∈ kinds, kind.Declared ∧ ∀ member ∈ kind.members, EnumPackage.Rewritable member :=
  .entries kindsParser rfl (fun _ => rfl) PayloadKind.parser_delimits count

/-- A record ends where the packet's tag ends. -/
theorem parser_delimits : parser.Delimits OfRecord := by
  refine Parser.octet_delimits.bind fun flags _ => ?_
  dsimp only
  split
  · exact .fail _
  refine (countParser_delimits _).bind fun count _ => ?_
  split
  · exact .fail _
  refine (boundsParser_delimits count).bind fun bounds hbounds => ?_
  refine (kindsParser_delimits count).bind fun kinds hkinds => ?_
  refine Parser.word_delimits.bind fun interval _ => ?_
  refine Parser.word_delimits.bind fun maxBatch _ => ?_
  refine Parser.word_delimits.bind fun rateLimit _ => ?_
  refine Parser.shortText_delimits.bind fun tag _ => ?_
  -- nothing is read from here on; the packet is made of the parts
  refine required_delimits.bind fun schema hschema => ?_
  refine required_delimits.bind fun flat hflat => ?_
  refine required_delimits.bind fun packet hpacket => .pure ?_
  obtain ⟨hdeclared, hslots⟩ :=
    schemaOf_eq_ok (fun kind hkind => (hkinds.2 kind hkind).1) (hkinds.1.trans hbounds.symm) hschema
  have hflatSlots : flat.slots = schema.slots := by
    unfold Schema.withAutoFlatten at hflat
    split at hflat
    · cases hflat
    · cases hflat
      rfl
  have hmade := ((hdeclared.autoFlatten hflat).spread (flags.toNat % 2 == 1)).batching interval maxBatch
  refine ⟨.enabled _ (.make (hmade.rateLimit rateLimit) hpacket), ?_, fun member hmember => ?_⟩
  · obtain ⟨⟨⟩, -, hpacket⟩ := Outcome.bind_eq_ok.1 hpacket
    obtain rfl := Outcome.pure_eq_ok.1 hpacket
    rfl
  · obtain ⟨⟨⟩, -, hpacket⟩ := Outcome.bind_eq_ok.1 hpacket
    obtain rfl := Outcome.pure_eq_ok.1 hpacket
    obtain ⟨slot, hslot, hmember⟩ := List.mem_flatMap.1 hmember
    exact (hkinds.2 _ (hslots slot (hflatSlots ▸ hslot))).2 member hmember

end Packet

/-! ## Sections of records -/

namespace Registry

/-- What is read is added at the end. -/
theorem insertRead_packets {registry registry' : Registry} {packet : Packet} (hnum : registry.Numbered)
    (h : registry.insertRead packet = .ok registry') : registry'.packets = registry.packets ++ [packet] := by
  unfold insertRead at h
  split at h
  · rename_i hinsert
    cases h
    rw [((insert_eq_ok hnum).1 hinsert).1]
  · cases h

theorem sectionParser_go_delimits {room : Nat} {registry : Registry} (hnum : registry.Numbered)
    (hregistry : ∀ packet ∈ registry.packets, packet.OfRecord) :
    (sectionParser.go room registry).Delimits fun registry => ∀ packet ∈ registry.packets, packet.OfRecord := by
  -- on how many more records may come; `registry` holds the packets read so far
  induction room generalizing registry with
  | zero => exact nofun
  | succ room ih =>
    intro bytes registry' rest hread
    cases bytes with
    | nil => cases hread
    | cons octet tail =>
      simp only [sectionParser.go] at hread
      split at hread
      · rename_i hend
        cases hread
        exact ⟨hregistry, [octet], rfl, fun rest => by simp [sectionParser.go, hend]⟩
      · rename_i hrecord
        obtain ⟨⟨packet, middle⟩, hpacket, hread⟩ := Outcome.bind_eq_ok.1 hread
        obtain ⟨next, hnext, hread⟩ := Outcome.bind_eq_ok.1 hread
        obtain ⟨hpacketOf, front, hfront, hreads⟩ := Packet.parser_delimits _ _ _ hpacket
        have hnextOf : ∀ packet ∈ next.packets, packet.OfRecord := by
          rw [insertRead_packets hnum hnext]
          exact List.forall_mem_append.2 ⟨hregistry, by simpa using hpacketOf⟩
        obtain ⟨hpost, back, rfl, hback⟩ := ih (insertRead_numbered hnum hnext) hnextOf _ _ _ hread
        -- a record has a first octet, and it is no delimiter
        cases front with
        | nil => cases hreads []
        | cons first front =>
          obtain ⟨rfl, rfl⟩ := List.cons.inj hfront
          refine ⟨hpost, octet :: (front ++ back), by simp, fun rest => ?_⟩
          have hfirst := hreads (back ++ rest)
          simp only [List.cons_append, List.append_assoc] at hfirst ⊢
          simp only [sectionParser.go, if_neg hrecord, hfirst]
          simp only [bind, Except.bind, hnext]
          exact hback rest

theorem sectionParser_delimits :
    sectionParser.Delimits fun registry => ∀ packet ∈ registry.packets, packet.OfRecord :=
  sectionParser_go_delimits empty_numbered nofun

end Registry

/-! ## Handshakes -/

namespace Handshake

variable {bytes more : Bytes} {handshake : Handshake}

theorem parse_mark (body : Bytes) :
    parse (mark ++ currentVersion :: body) =
      match bodyParser currentVersion body with
      | .ok (handshake, _) => .ok handshake
      | .error _ => .error .notProtocol := by
  have hmark : (mark ++ currentVersion :: body).take 4 = mark := rfl
  have hversion : (mark ++ currentVersion :: body).drop 4 = currentVersion :: body := rfl
  rw [parse, if_neg (not_not.2 hmark), hversion]
  exact if_neg (not_not.2 rfl)

/-- A message is refused for its version only behind the mark. -/
theorem parse_eq_error {error : ProtocolError} (h : parse bytes = .error error) :
    error = .notProtocol ∨ ∃ version body, version ≠ currentVersion ∧ bytes = mark ++ version :: body := by
  unfold parse at h
  split at h
  · cases h
    exact .inl rfl
  · rename_i hmark
    split at h
    · cases h
      exact .inl rfl
    · rename_i version body hbody
      split at h
      · rename_i hversion
        refine .inr ⟨version, body, hversion, ?_⟩
        rw [← hbody, ← not_not.1 hmark, List.take_append_drop]
      · split at h
        · cases h
        · cases h
          exact .inl rfl

/-- What is read as a handshake: behind mark and version two sections of records, each read as one of the
registries whatever comes behind, and the octet of the window. -/
theorem sections_of_parse (h : parse bytes = .ok handshake) :
    ∃ client server, bytes = mark ++ currentVersion :: (client ++ (server ++ [handshake.rateWindow])) ∧
      Registry.sectionParser.Reads client handshake.client ∧ Registry.sectionParser.Reads server handshake.server ∧
      handshake.version = currentVersion ∧
      ∀ packet ∈ handshake.client.packets ++ handshake.server.packets, packet.OfRecord := by
  unfold parse at h
  split at h
  · cases h
  · rename_i hmark
    split at h
    · cases h
    · rename_i version body hbody
      split at h
      · cases h
      · rename_i hversion
        split at h
        · rename_i _ rest hread
          cases h
          have hbytes : bytes = mark ++ currentVersion :: body := by
            rw [← not_not.1 hversion, ← hbody, ← not_not.1 hmark, List.take_append_drop]
          obtain ⟨⟨client, back⟩, hclient, hback⟩ := Outcome.bind_eq_ok.1 hread
          obtain ⟨⟨server, last⟩, hserver, hlast⟩ := Outcome.bind_eq_ok.1 hback
          obtain ⟨hclients, front, rfl, hfront⟩ := Registry.sectionParser_delimits _ _ _ hclient
          obtain ⟨hservers, middle, rfl, hmiddle⟩ := Registry.sectionParser_delimits _ _ _ hserver
          match last, hlast with
          | [window], hlast =>
            cases hlast
            exact ⟨front, middle, hbytes, hfront, hmiddle, not_not.1 hversion,
              List.forall_mem_append.2 ⟨hclients, hservers⟩⟩
          | [], hlast => cases hlast
          | _ :: _ :: _, hlast => cases hlast
        · cases h

/-- Nothing may come behind a handshake. -/
theorem parse_append (h : parse bytes = .ok handshake) (hmore : more ≠ []) :
    parse (bytes ++ more) = .error .notProtocol := by
  obtain ⟨client, server, rfl, hclient, hserver, -, -⟩ := sections_of_parse h
  obtain ⟨first, rest, rfl⟩ := List.exists_cons_of_ne_nil hmore
  have hbody : bodyParser currentVersion (client ++ (server ++ handshake.rateWindow :: first :: rest)) =
      .error .trailingBytes := by
    rw [bodyParser]
    simp only [bind, StateT.bind, Except.bind, hclient _, hserver _]
    rfl
  have hbytes : mark ++ currentVersion :: (client ++ (server ++ [handshake.rateWindow])) ++ first :: rest =
      mark ++ currentVersion :: (client ++ (server ++ handshake.rateWindow :: first :: rest)) := by simp
  rw [hbytes, parse_mark, hbody]

/-- No handshake is the beginning of another: what is cut off or continued is of no protocol. -/
theorem parse_prefix_free (h : parse bytes = .ok handshake) :
    ∀ other, other ≠ bytes → other <+: bytes ∨ bytes <+: other → parse other = .error .notProtocol := by
  rintro other hne (⟨more, rfl⟩ | ⟨more, rfl⟩)
  · have hmore : more ≠ [] := fun hnil => hne (by rw [hnil, List.append_nil])
    cases hother : parse other with
    | ok handshake' =>
      -- a handshake that was cut off may not be continued
      rw [parse_append hother hmore] at h
      cases h
    | error error =>
      obtain rfl | ⟨version, body, hversion, rfl⟩ := parse_eq_error hother
      · rfl
      · obtain ⟨client, server, hbytes, -⟩ := sections_of_parse h
        rw [List.append_assoc, List.append_cancel_left_eq, List.cons_append, List.cons.injEq] at hbytes
        exact absurd hbytes.1 hversion
  · exact parse_append h fun hnil => hne (by rw [hnil, List.append_nil])

namespace Greeting

/-- One packet of the client's, none of the server's, and a window of a second. -/
def told : Handshake :=
  { version := 1
    client := ⟨[{ tag := "say", schema := { shape := .single ⟨.raw, 1, 100⟩ } }]⟩
    server := ⟨[]⟩
    rateWindow := 1 }

def message : Bytes := [0x54, 0x57, 0x49, 0x52, 1, 0x89, 1, 100, 1, 0, 0, 0, 3, 0x73, 0x61, 0x79, 0, 0, 1]

end Greeting

/-- Wherever the greeting is cut, and whatever comes behind it, the rest is no handshake. -/
theorem parse_prefix_free_greeting :
    parse Greeting.message = .ok Greeting.told ∧
      (∀ count < Greeting.message.length, parse (Greeting.message.take count) = .error .notProtocol) ∧
      ∀ more, more ≠ [] → parse (Greeting.message ++ more) = .error .notProtocol := by
  have hparse : parse Greeting.message = .ok Greeting.told := by cbv
  refine ⟨hparse, fun count hcount => ?_, fun more hmore => ?_⟩
  · refine parse_prefix_free hparse _ (fun hsame => ?_) (.inl (List.take_prefix _ _))
    have hlength := congrArg List.length hsame
    rw [List.length_take_of_le (Nat.le_of_lt hcount)] at hlength
    omega
  · exact parse_prefix_free hparse _ (fun hsame => hmore (List.append_right_eq_self.1 hsame))
      (.inr (List.prefix_append _ _))

end Handshake

end PacketProtocol
