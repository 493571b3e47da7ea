import Onboarding.Daemon.Config
import Onboarding.Proofs.IpAddress
import Onboarding.Proofs.Schema.Arranged
/-!
# Configurations — what is written out reads back

Every member of a configuration has a fallback. Where a configuration is written out, only the
stake of the testnet is ever left out, and where that is left out there is none
(`ConfigWith.restores_schema`); no other member can fall back to its default. None of the
numbers that a file holds is too large for one, so a configuration that was read can be written.
Its address is kept as the usual form of a socket, and that form names the socket again. So what
is written reads back as the same configuration (`Config.reads_back`).
-/

namespace Onboarding

/-! ## Layouts that restore what they leave out -/

namespace Fields

variable {α β : Type} {name : String} {item : Schema α} {rest : Fields β} {value : α}

/-- A member that is always written. -/
theorem restores_required (hname : name ∉ rest.names) (hwritten : ∀ a, item.isAbsent a = false)
    (hitem : item.Restores) (hrest : rest.Restores) : (required name item rest).Restores :=
  ⟨hname, fun a ha => absurd ha (by simp [hwritten a]), nofun, hitem, hrest⟩

/-- A member that is always written, with a fallback that can be. -/
theorem restores_optional (hname : name ∉ rest.names) (hwritten : ∀ a, item.isAbsent a = false)
    (hvalue : (item.toToml? value).isSome = true) (hitem : item.Restores) (hrest : rest.Restores) :
    (optional name item value rest).Restores :=
  ⟨hname, fun a ha => absurd ha (by simp [hwritten a]),
    fun a ha => .inr (Option.isSome_iff_exists.1 (Option.some.inj ha ▸ hvalue)), hitem, hrest⟩

/-- A member that is left out where it is nothing, and is nothing where it is left out. -/
theorem restores_option (hname : name ∉ rest.names) (hitem : item.Restores)
    (hrest : rest.Restores) : (optional name (.option item) none rest).Restores := by
  refine ⟨hname, fun a ha => ?_, fun a ha => .inl ?_, hitem, hrest⟩
  · cases a with
    | none => rfl
    | some a => cases ha
  · cases ha
    rfl

end Fields

open Fields

theorem BroadcastConfig.restores_schema : BroadcastConfig.schema.Restores :=
  restores_optional (by decide) (fun _ => rfl) rfl trivial <|
  restores_optional (by decide) (fun _ => rfl) rfl trivial <|
  restores_optional (by decide) (fun _ => rfl) rfl trivial trivial

theorem MailTemplates.restores_schema : MailTemplates.schema.Restores :=
  restores_optional (by decide) (fun _ => rfl) rfl trivial <|
  restores_optional (by decide) (fun _ => rfl) rfl trivial <|
  restores_optional (by decide) (fun _ => rfl) rfl trivial <|
  restores_optional (by decide) (fun _ => rfl) rfl trivial <|
  restores_optional (by decide) (fun _ => rfl) rfl trivial trivial

theorem MailConfig.restores_schema : MailConfig.schema.Restores :=
  restores_optional (by decide) (fun _ => rfl) rfl trivial <|
  restores_optional (by decide) (fun _ => rfl) rfl trivial <|
  restores_optional (by decide) (fun _ => rfl) rfl trivial <|
  restores_optional (by decide) (fun _ => rfl) rfl MailTemplates.restores_schema trivial

theorem RewardTier.restores_schema : RewardTier.schema.Restores :=
  restores_required (by decide) (fun _ => rfl) trivial <|
  restores_required (by decide) (fun _ => rfl) trivial trivial

theorem RewardPolicy.restores_schema : RewardPolicy.schema.Restores :=
  restores_optional (by decide) (fun _ => rfl) rfl trivial <|
  restores_optional (by decide) (fun _ => rfl) rfl RewardTier.restores_schema trivial

theorem Settings.restores_schema : Settings.schema.Restores :=
  restores_optional (by decide) (fun _ => rfl) rfl trivial <|
  restores_optional (by decide) (fun _ => rfl) rfl trivial <|
  restores_optional (by decide) (fun _ => rfl) rfl trivial <|
  restores_optional (by decide) (fun _ => rfl) rfl RewardPolicy.restores_schema <|
  restores_option (by decide) trivial trivial

theorem LogFormat.restores_schema : LogFormat.schema.Restores :=
  show ["human", "json"].Nodup by decide

namespace ConfigWith

theorem restores_schema : schema.Restores :=
  restores_optional (by decide) (fun _ => rfl) rfl trivial <|
  restores_optional (by decide) (fun _ => rfl) rfl trivial <|
  restores_optional (by decide) (fun _ => rfl) rfl trivial <|
  restores_optional (by decide) (fun _ => rfl) rfl LogFormat.restores_schema <|
  restores_optional (by decide) (fun _ => rfl) rfl trivial <|
  restores_optional (by decide) (fun _ => rfl) rfl BroadcastConfig.restores_schema <|
  restores_optional (by decide) (fun _ => rfl) rfl MailConfig.restores_schema <|
  restores_optional (by decide) (fun _ => rfl) rfl Settings.restores_schema <|
  restores_optional (by decide) (fun _ => rfl) rfl trivial <|
  restores_optional (by decide) (fun _ => rfl) rfl trivial <|
  restores_optional (by decide) (fun _ => rfl) rfl trivial trivial

theorem depth_schema : schema.depth ≤ Toml.depthLimit := by decide

/-- A configuration can be written whatever the text of its address. -/
theorem exists_toToml?_withListen {c : ConfigWith String} (h : ∃ v, schema.toToml? c = some v)
    (listen : String) :
    ∃ members, schema.toToml? (c.withListen listen) = some (.table members) := by
  obtain ⟨v, hv⟩ := h
  obtain ⟨ms, hms, -⟩ := Option.map_eq_some_iff.1 hv
  obtain ⟨hdir, hmembers⟩ := exists_toTable?_iff.1 ⟨ms, hms⟩
  obtain ⟨hsize, hmembers⟩ := exists_toTable?_iff.1 hmembers
  obtain ⟨-, hothers⟩ := exists_toTable?_iff.1 hmembers
  have hlisten : ∃ v, Schema.text.toToml? listen = some v := ⟨.text listen, rfl⟩
  obtain ⟨ms', hms'⟩ := exists_toTable?_iff.2 ⟨hdir, exists_toTable?_iff.2
    ⟨hsize, exists_toTable?_iff.2 ⟨.inr hlisten, hothers⟩⟩⟩
  exact ⟨ms', congrArg (Option.map Toml.table) hms'⟩

end ConfigWith

namespace Config

variable {text : String} {c : Config}

/-- A text is a configuration if its address names a socket and the service can work with its
settings. What is kept of the address is the usual form of the socket. -/
theorem ofText_eq_ok_iff :
    ofText text = .ok c ↔ ∃ r a, read? text = some r ∧ SocketAddress.parse? r.listen = some a ∧
      a.text = c.listen.text ∧ r.service.check = .ok () ∧ r.withListen c.listen = c := by
  unfold ofText
  constructor
  · intro h
    split at h
    · cases h
    · rename_i r hr
      split at h
      · cases h
      · rename_i listen hlisten
        split at h
        · cases h
        · rename_i hcheck
          cases h
          obtain ⟨a, ha, htext⟩ := ListenAddress.parse?_eq_some_iff.1 hlisten
          exact ⟨r, a, hr, ha, htext, hcheck, rfl⟩
  · rintro ⟨r, a, hr, ha, htext, hcheck, hc⟩
    have hlisten : ListenAddress.parse? r.listen = some c.listen :=
      ListenAddress.parse?_eq_some_iff.2 ⟨a, ha, htext⟩
    simp only [hr, hlisten, hcheck, hc]

/-- **Every socket can be configured.** -/
theorem exists_ofText_iff :
    (∃ c, ofText text = .ok c) ↔ ∃ r a, read? text = some r ∧
      SocketAddress.parse? r.listen = some a ∧ r.service.check = .ok () := by
  constructor
  · rintro ⟨c, hc⟩
    obtain ⟨r, a, hr, ha, -, hcheck, -⟩ := ofText_eq_ok_iff.1 hc
    exact ⟨r, a, hr, ha, hcheck⟩
  · rintro ⟨r, a, hr, ha, hcheck⟩
    obtain ⟨listen, htext⟩ := ListenAddress.exists_text_eq ha
    exact ⟨r.withListen listen, ofText_eq_ok_iff.2 ⟨r, a, hr, ha, htext.symm, hcheck, rfl⟩⟩

/-- What was read can be written, with any text for its address. -/
theorem exists_toToml?_of_read? {r : ConfigWith String} (h : read? text = some r)
    (listen : String) :
    ∃ members, ConfigWith.schema.toToml? (r.withListen listen) = some (.table members) := by
  unfold read? at h
  split at h
  · cases h
  · rename_i found hfound
    have hrange := Toml.inRange_of_parse? hfound
    have hwritten := ConfigWith.schema.exists_toToml?_of_ofToml? ConfigWith.restores_schema _
      hrange r h
    exact ConfigWith.exists_toToml?_withListen hwritten listen

/-- What is written reads back. -/
theorem read?_render {r : ConfigWith String} {members : List (String × Toml)}
    (h : ConfigWith.schema.toToml? r = some (.table members)) :
    read? (Toml.render members) = some r := by
  obtain ⟨found, hparse, hfound⟩ := Schema.exists_parse?_render ConfigWith.restores_schema
    ConfigWith.depth_schema h
  rw [read?, hparse]
  exact hfound

/-- **A configuration that was read can be written, and what is written reads back as it.** A
text holds a configuration if it can be read, its address names a socket and the service can work
with its settings. What is written for it says what the text says, with the usual form of the
address, which names the same socket. -/
theorem reads_back (text : String) :
    ((∃ c, ofText text = .ok c) ↔ ∃ r a, read? text = some r ∧
      SocketAddress.parse? r.listen = some a ∧ r.service.check = .ok ()) ∧
    ∀ c, ofText text = .ok c →
      ∃ written, c.toText? = some written ∧ ofText written = .ok c ∧
        ∃ r a, read? text = some r ∧ SocketAddress.parse? r.listen = some a ∧
          read? written = some (r.withListen a.text) ∧ SocketAddress.parse? a.text = some a := by
  refine ⟨exists_ofText_iff, fun c h => ?_⟩
  obtain ⟨r, a, hr, ha, htext, hcheck, hc⟩ := ofText_eq_ok_iff.1 h
  have hsame : c.withListen c.listen.text = r.withListen a.text := by rw [htext, ← hc]; rfl
  obtain ⟨members, hmembers⟩ := exists_toToml?_of_read? hr a.text
  have htable : c.toToml? = some members := by rw [toToml?, hsame, hmembers]
  have hwritten : c.toText? = some (Toml.render members) := by rw [toText?, htable, Option.map_some]
  have hread := read?_render hmembers
  -- the address is written in its usual form, whatever form it was read from
  have hback : SocketAddress.parse? a.text = some a := SocketAddress.parse?_text ha
  have hrest : (r.withListen a.text).withListen c.listen = c := hc
  exact ⟨_, hwritten, ofText_eq_ok_iff.2 ⟨_, a, hread, hback, htext, hcheck, hrest⟩, r, a, hr, ha,
    hread, hback⟩

/-- A file that leaves most members out: its address is not in the usual form, the case is a
table, one list is empty and one text needs escapes. -/
def sparseText : String :=
  "listen_addr = \"[::ffff:1.2.3.4%7]:080\"\nlog_format = \x7bjson = \x7b\x7d\x7d\n" ++
    "fraud_domains = [\"a, b\", \"\"]\n[service.referral]\nsender_tiers = []\n" ++
    "[mail.templates]\nwelcome_body = \"a \\\"b\\\"\\n\\u0007\"\n"

/-- What the file says. -/
def sparse : Config :=
  { default with
    listen := ⟨"[::ffff:1.2.3.4%7]:80", by decide +kernel⟩
    logFormat := .json
    fraudDomains := ["a, b", ""]
    mail := { templates := { welcomeBody := "a \"b\"\n\x07" } }
    service := { referral := { senderTiers := [] } } }

theorem reads_back_sparse :
    ofText sparseText = .ok sparse ∧
      ∃ written, sparse.toText? = some written ∧ ofText written = .ok sparse := by
  have hread : read? sparseText = some (sparse.withListen "[::ffff:1.2.3.4%7]:080") := by
    decide +kernel
  have hsocket : SocketAddress.parse? "[::ffff:1.2.3.4%7]:080" =
      some { host := .v6 [0, 0, 0, 0, 0, 0xFFFF, 0x102, 0x304], scope := 7, port := 80 } := by
    decide +kernel
  have hcheck : sparse.service.check = .ok () := by decide +kernel
  have hsparse : ofText sparseText = .ok sparse :=
    ofText_eq_ok_iff.2 ⟨_, _, hread, hsocket, by decide +kernel, hcheck, rfl⟩
  obtain ⟨written, hwritten, hback, -⟩ := (reads_back sparseText).2 sparse hsparse
  exact ⟨hsparse, written, hwritten, hback⟩

end Config

end Onboarding
