import PacketProtocol.Definition
import PacketProtocol.Proofs.Agreement
import PacketProtocol.Proofs.Declared
/-!
# Keys stay in use

Switching packets on and off leaves them under their keys. Whatever a definition was built from and
whatever a handshake says, the packets of a registry are numbered.
-/

namespace PacketProtocol

namespace Registry

/-! ## Registries up to their enabled bits -/

/-- The same packets under the same keys, enabled or not. -/
def Alike (a b : Registry) : Prop := a.packets.map (·.setEnabled true) = b.packets.map (·.setEnabled true)

theorem setEnabled_alike (registry : Registry) (tag : String) (enabled : Bool) :
    (registry.setEnabled tag enabled).Alike registry := by
  rw [Alike, setEnabled, List.map_map]
  refine List.map_congr_left fun packet _ => ?_
  simp only [Function.comp]
  split <;> rfl

variable {a b : Registry}

theorem Alike.tags (h : a.Alike b) : a.tags = b.tags := by
  have htags : ∀ registry : Registry, registry.tags = (registry.packets.map (·.setEnabled true)).map Packet.tag := by
    intro registry
    rw [List.map_map]
    rfl
  rw [htags, htags, h]

theorem Alike.size (h : a.Alike b) : a.size = b.size := by
  have hlength := congrArg List.length h
  rw [List.length_map, List.length_map] at hlength
  exact hlength

theorem Alike.numbered (h : a.Alike b) (hnum : b.Numbered) : a.Numbered :=
  ⟨h.tags ▸ hnum.tags, h.size ▸ hnum.size⟩

/-- Under each key stands the same packet. -/
theorem Alike.byKey (h : a.Alike b) {key : UInt8} {packet : Packet} (hkey : a.byKey key = .ok packet) :
    ∃ packet', b.byKey key = .ok packet' ∧ packet'.setEnabled true = packet.setEnabled true := by
  obtain ⟨hne, hget⟩ := byKey_eq_ok.1 hkey
  have hmap := congrArg (fun packets => packets[key.toNat - 1]?) h
  simp only [List.getElem?_map, hget, Option.map_some] at hmap
  obtain ⟨packet', hget', hsame⟩ := Option.map_eq_some_iff.1 hmap.symm
  exact ⟨packet', byKey_eq_ok.2 ⟨hne, hget'⟩, hsame⟩

/-! ## Numbers that were read -/

theorem insertRead_numbered {registry registry' : Registry} {packet : Packet} (hnum : registry.Numbered)
    (h : registry.insertRead packet = .ok registry') : registry'.Numbered := by
  unfold insertRead at h
  split at h
  · rename_i hinsert
    cases h
    exact ((insert_eq_ok hnum).1 hinsert).2
  · cases h

theorem sectionParser_go_numbered {room : Nat} {registry registry' : Registry} {bytes rest : Bytes}
    (hnum : registry.Numbered) (h : sectionParser.go room registry bytes = .ok (registry', rest)) :
    registry'.Numbered := by
  induction room generalizing registry bytes with
  | zero => cases h
  | succ room ih =>
    simp only [sectionParser.go] at h
    split at h
    · cases h
    · split at h
      · cases h
        exact hnum
      · obtain ⟨⟨packet, bytes'⟩, -, h⟩ := Outcome.bind_eq_ok.1 h
        obtain ⟨next, hnext, h⟩ := Outcome.bind_eq_ok.1 h
        exact ih (insertRead_numbered hnum hnext) h

/-- Whatever the octets are, what is read from them is numbered. -/
theorem sectionParser_numbered {registry : Registry} {bytes rest : Bytes}
    (h : sectionParser bytes = .ok (registry, rest)) : registry.Numbered :=
  sectionParser_go_numbered empty_numbered h

end Registry

namespace Handshake

/-- Both registries come from record sections. -/
theorem bodyParser_registries {version : UInt8} {bytes rest : Bytes} {handshake : Handshake}
    (h : bodyParser version bytes = .ok (handshake, rest)) :
    ∃ back last, Registry.sectionParser bytes = .ok (handshake.client, back) ∧
      Registry.sectionParser back = .ok (handshake.server, last) := by
  obtain ⟨⟨client, back⟩, hclient, h⟩ := Outcome.bind_eq_ok.1 h
  obtain ⟨⟨server, last⟩, hserver, h⟩ := Outcome.bind_eq_ok.1 h
  match last, h with
  | [window], h =>
    cases h
    exact ⟨back, _, hclient, hserver⟩
  | [], h => cases h
  | _ :: _ :: _, h => cases h

theorem parse_numbered {bytes : Bytes} {handshake : Handshake} (h : parse bytes = .ok handshake) :
    handshake.client.Numbered ∧ handshake.server.Numbered := by
  unfold parse at h
  split at h
  · cases h
  · split at h
    · cases h
    · split at h
      · cases h
      · split at h
        · rename_i hbody
          cases h
          obtain ⟨_, _, hclient, hserver⟩ := bodyParser_registries hbody
          exact ⟨Registry.sectionParser_numbered hclient, Registry.sectionParser_numbered hserver⟩
        · cases h

end Handshake

/-! ## Definitions that were built -/

namespace Definition

/-- Definitions made of declared packets, with enabled bits set since. -/
inductive Built : Definition → Prop
  | make {client server : List Packet} {enums : EnumRegistry} {config : ServerConfig} {definition : Definition} :
      (∀ packet ∈ client, packet.Declared) → (∀ packet ∈ server, packet.Declared) →
      make client server enums config = .ok definition → Built definition
  | setClientEnabled {definition : Definition} (tag : String) (enabled : Bool) :
      Built definition → Built (definition.setClientEnabled tag enabled)
  | setServerEnabled {definition : Definition} (tag : String) (enabled : Bool) :
      Built definition → Built (definition.setServerEnabled tag enabled)

theorem Built.numbered {definition : Definition} (h : definition.Built) :
    definition.client.Numbered ∧ definition.server.Numbered := by
  induction h with
  | make _ _ hmake => exact ⟨(made hmake).clientNumbered, (made hmake).serverNumbered⟩
  | setClientEnabled tag enabled _ ih => exact ⟨(Registry.setEnabled_alike _ tag enabled).numbered ih.1, ih.2⟩
  | setServerEnabled tag enabled _ ih => exact ⟨ih.1, (Registry.setEnabled_alike _ tag enabled).numbered ih.2⟩

end Definition

end PacketProtocol
