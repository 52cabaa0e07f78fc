import Mathlib.Data.Bool.AllAny
import SyncPlus.Lib.ShellWords
import SyncPlus.ProfileColumns

/-!
# The remote helper

The fixed command that is run through `ssh` to hash one file of a remote peer.
The path is quoted for the remote shell, and the quoting spells exactly the text
of the path (`spells_encodeRemoteShellWord`), but the text of a path that is no
UTF-8 is another path's. The account stands before the command, where `ssh` still
reads options, and a user name may begin with a dash.
-/

namespace SyncPlus

/-- An argument as the process gets it. -/
abbrev OsString := List UInt8

def osString (text : String) : OsString := (PathBuf.ofText text).bytes

structure ProcessInvocation where
  program : OsString
  arguments : List OsString
  deriving DecidableEq

inductive RemoteHelperKind where
  | sha256
  deriving DecidableEq

structure RemoteHelperInvocation where
  kind : RemoteHelperKind
  path : PathBuf
  invocation : ProcessInvocation
  deriving DecidableEq

/-- `'` -/
abbrev quoteChar : Char := Char.ofNat 39

/-- `\` -/
abbrev backslashChar : Char := Char.ofNat 92

def encodeRemoteShellWord (lossy : LossyText) (path : PathBuf) : String :=
  .ofList (quoteChar ::
    ((lossy.text path).toList.flatMap fun c =>
      if c = quoteChar then [quoteChar, backslashChar, quoteChar, quoteChar] else [c]) ++
    [quoteChar])

/-- How the peer is to authenticate. -/
def SshPeer.authenticationOptions (peer : SshPeer) : Except ProcessSpecError (List OsString) :=
  match peer.authentication with
  | .key =>
      match peer.identity with
      | none => .error .unsupportedSshTopology
      | some identity =>
          .ok (["-o", "IdentitiesOnly=yes", "-o", "IdentityAgent=none",
            "-o", "PreferredAuthentications=publickey", "-o", "PasswordAuthentication=no",
            "-o", "KbdInteractiveAuthentication=no", "-i"].map osString ++ [identity.bytes])
  | .agent =>
      .ok (["-o", "IdentityFile=none", "-o", "PreferredAuthentications=publickey",
        "-o", "PasswordAuthentication=no", "-o", "KbdInteractiveAuthentication=no"].map osString)
  | .interactivePassword | .savedPassword _ =>
      .ok (["-o", "IdentityFile=none", "-o", "IdentityAgent=none",
        "-o", "PreferredAuthentications=keyboard-interactive,password",
        "-o", "PasswordAuthentication=yes",
        "-o", "KbdInteractiveAuthentication=yes"].map osString)

def RemoteHelperInvocation.sha256 (lossy : LossyText) (peer : SshPeer) (path : PathBuf) :
    Except ProcessSpecError RemoteHelperInvocation := do
  validatePeerPath "remote helper path" path
  let authentication ← peer.authenticationOptions
  return {
    kind := .sha256
    path
    invocation := {
      program := osString "ssh"
      arguments := [osString "-p", osString (toString peer.port)] ++ authentication ++
        [osString (peer.username ++ "@" ++ peer.server),
          osString ("sha256sum -- " ++ encodeRemoteShellWord lossy path)] } }

/-- The account, the last argument but one, is no option, and the command, the
last argument, is the fixed one with exactly this path. -/
def ProcessInvocation.CarriesPath (invocation : ProcessInvocation) (path : PathBuf) : Prop :=
  ∃ options account command, invocation.arguments = options ++ [account, command] ∧
    account.head? ≠ some 45 ∧
    shellWords command = some [osString "sha256sum", osString "--", path.bytes]

/-! ## Letters and their bytes -/

theorem osString_eq_flatMap (text : String) :
    osString text = text.toList.flatMap String.utf8EncodeChar :=
  PathBuf.bytes_ofText text

theorem osString_append (text text' : String) :
    osString (text ++ text') = osString text ++ osString text' := by
  simp [osString_eq_flatMap]

/-- The quoting of the letters is the quoting of the bytes. -/
theorem osString_encodeRemoteShellWord (lossy : LossyText) (path : PathBuf) :
    osString (encodeRemoteShellWord lossy path) =
      Shell.quoteWord (osString (lossy.text path)) := by
  have hletter : ∀ c : Char,
      (if c = quoteChar then [quoteChar, backslashChar, quoteChar, quoteChar]
        else [c]).flatMap String.utf8EncodeChar =
      (String.utf8EncodeChar c).flatMap Shell.quoteByte := by
    intro c
    by_cases hc : c = quoteChar
    · subst hc
      rfl
    · have hbytes : ∀ b ∈ String.utf8EncodeChar c, Shell.quoteByte b = [b] := by
        intro b hb
        refine if_neg fun heq => hc ?_
        subst heq
        exact Char.toNat_inj.mp (PathBuf.toNat_of_mem_utf8EncodeChar (by decide) hb)
      rw [if_neg hc, List.flatMap_singleton, List.flatMap_congr hbytes]
      simp
  have hquote : String.utf8EncodeChar quoteChar = [Shell.singleQuote] := rfl
  rw [osString_eq_flatMap, osString_eq_flatMap, encodeRemoteShellWord, String.toList_ofList]
  simp only [List.flatMap_cons, List.flatMap_append, List.flatMap_assoc, hletter, hquote,
    List.flatMap_nil, Shell.quoteWord]
  simp

/-- The encoded path stands for exactly the text of the path. -/
theorem spells_encodeRemoteShellWord (lossy : LossyText) (path : PathBuf) :
    Shell.Spells (osString (encodeRemoteShellWord lossy path)) (osString (lossy.text path)) := by
  rw [osString_encodeRemoteShellWord]
  exact Shell.spells_quoteWord _

/-- The words of the remote command. -/
theorem shellWords_command (lossy : LossyText) (path : PathBuf) :
    shellWords (osString ("sha256sum -- " ++ encodeRemoteShellWord lossy path)) =
      some [osString "sha256sum", osString "--", osString (lossy.text path)] := by
  have hhash : Shell.Spells (osString "sha256sum") (osString "sha256sum") :=
    Shell.spells_plain (by decide) (List.all_iff_forall_prop.mp (by decide))
  have hend : Shell.Spells (osString "--") (osString "--") :=
    Shell.spells_plain (by decide) (List.all_iff_forall_prop.mp (by decide))
  have hfixed : osString "sha256sum -- " =
      osString "sha256sum" ++ Shell.blank :: (osString "--" ++ [Shell.blank]) := by
    decide
  rw [osString_append, hfixed, List.append_assoc, List.cons_append, List.append_assoc,
    List.singleton_append, Shell.shellWords_append_blank hhash,
    Shell.shellWords_append_blank hend,
    Shell.shellWords_of_spells (spells_encodeRemoteShellWord lossy path)]
  rfl

/-! ## The invocation -/

/-- A key comes with its identity. -/
theorem authenticationOptions_ok (peer : SshPeer) :
    ∃ options, peer.authenticationOptions = .ok options := by
  have hidentity : peer.authentication = .key → peer.identity.isSome = true := by
    have haccess := peer.access
    unfold SshAccess at haccess
    simp only [ensure_bind_eq_ok, ensure_eq_ok] at haccess
    exact haccess.2.2.2.2.2.2.2
  unfold SshPeer.authenticationOptions
  cases hauthentication : peer.authentication with
  | key =>
      obtain ⟨identity, hsome⟩ := Option.isSome_iff_exists.mp (hidentity hauthentication)
      rw [hsome]
      exact ⟨_, rfl⟩
  | agent => exact ⟨_, rfl⟩
  | interactivePassword => exact ⟨_, rfl⟩
  | savedPassword reference => exact ⟨_, rfl⟩

/-- The account begins as the user name does. -/
theorem head_account (peer : SshPeer) :
    (osString (peer.username ++ "@" ++ peer.server)).head? = some 45 ↔
      peer.username.toList.head? = some '-' := by
  have hne : peer.username.toList ≠ [] := by
    have haccess := peer.access
    unfold SshAccess at haccess
    simp only [ensure_bind_eq_ok, ensure_eq_ok] at haccess
    simpa using haccess.2.2.1
  rw [osString_append, osString_append, osString_eq_flatMap]
  cases hname : peer.username.toList with
  | nil => exact absurd hname hne
  | cons c rest =>
      have hbytes := String.utf8EncodeChar_ne_nil (c := c)
      cases hc : String.utf8EncodeChar c with
      | nil => exact absurd hc hbytes
      | cons b bytes =>
          simp only [List.flatMap_cons, hc, List.cons_append, List.head?_cons, Option.some.injEq]
          constructor
          · rintro rfl
            have hmem : (45 : UInt8) ∈ String.utf8EncodeChar c := by simp [hc]
            exact Char.toNat_inj.mp (PathBuf.toNat_of_mem_utf8EncodeChar (by decide) hmem)
          · rintro rfl
            cases hc
            rfl

/-- The helper of a valid path: the account and the command come last. -/
theorem sha256_eq_ok (lossy : LossyText) (peer : SshPeer) {path : PathBuf}
    (hpath : validatePeerPath "remote helper path" path = .ok ()) :
    ∃ helper options, RemoteHelperInvocation.sha256 lossy peer path = .ok helper ∧
      helper.invocation.arguments = options ++
        [osString (peer.username ++ "@" ++ peer.server),
          osString ("sha256sum -- " ++ encodeRemoteShellWord lossy path)] := by
  obtain ⟨options, hoptions⟩ := authenticationOptions_ok peer
  unfold RemoteHelperInvocation.sha256
  rw [hpath, hoptions]
  exact ⟨_, _, rfl, rfl⟩

/-- What a helper carries is the text of the path, behind the user name. -/
theorem carriesPath_iff {lossy : LossyText} {peer : SshPeer} {path other : PathBuf}
    {helper : RemoteHelperInvocation}
    (hok : RemoteHelperInvocation.sha256 lossy peer path = .ok helper)
    (hpath : validatePeerPath "remote helper path" path = .ok ()) :
    helper.invocation.CarriesPath other ↔
      osString (lossy.text path) = other.bytes ∧ peer.username.toList.head? ≠ some '-' := by
  obtain ⟨helper', options, hok', harguments⟩ := sha256_eq_ok lossy peer hpath
  obtain rfl : helper = helper' := Except.ok.inj (hok.symm.trans hok')
  constructor
  · rintro ⟨before, account, command, hsplit, hdash, hwords⟩
    obtain ⟨-, hlast⟩ := List.append_inj' (harguments.symm.trans hsplit) rfl
    cases hlast
    rw [shellWords_command] at hwords
    refine ⟨?_, fun h => hdash ((head_account peer).mpr h)⟩
    simpa using hwords
  · rintro ⟨hbytes, hdash⟩
    refine ⟨_, _, _, harguments, fun h => hdash ((head_account peer).mp h), ?_⟩
    rw [shellWords_command, hbytes]

/-- The text of a path is the path where it is UTF-8. -/
theorem osString_text_iff (lossy : LossyText) {path : PathBuf} :
    osString (lossy.text path) = path.bytes ↔ path.toText.isSome = true := by
  constructor
  · intro h
    have hsome := PathBuf.toText_ofText (lossy.text path)
    have hself : PathBuf.ofText (lossy.text path) = path := congrArg PathBuf.mk h
    rw [hself] at hsome
    rw [hsome]
    rfl
  · intro h
    obtain ⟨text, hsome⟩ := Option.isSome_iff_exists.mp h
    rw [lossy.text_eq path text hsome]
    exact congrArg PathBuf.bytes (PathBuf.ofText_toText hsome)

/-- **The helper carries the path it was made for** exactly where the path is
UTF-8 and the user name does not begin with a dash. -/
theorem helper_carriesPath_iff (lossy : LossyText) (peer : SshPeer) (path : PathBuf)
    (hpath : validatePeerPath "remote helper path" path = .ok ()) :
    (∃ helper, RemoteHelperInvocation.sha256 lossy peer path = .ok helper ∧
        helper.invocation.CarriesPath path) ↔
      path.toText.isSome = true ∧ peer.username.toList.head? ≠ some '-' := by
  rw [← osString_text_iff lossy]
  constructor
  · rintro ⟨helper, hok, hcarries⟩
    exact (carriesPath_iff hok hpath).mp hcarries
  · intro h
    obtain ⟨helper, options, hok, -⟩ := sha256_eq_ok lossy peer hpath
    exact ⟨helper, hok, (carriesPath_iff hok hpath).mpr h⟩

/-! ### A quote, a byte that is no text, a name with a dash -/

def helperPeer (username : String)
    (access : SshAccess "host" username 22 none .agent = .ok ()) : SshPeer where
  server := "host"
  username
  port := 22
  identity := none
  authentication := .agent
  remotePath := .ofText "/r"
  access
  remote := ⟨"/r", by decide, by decide, rfl⟩

/-- Texts of paths, as they are for a root with one name of one byte: the replacement
character stands for a byte that is no letter. -/
def replacedText : LossyText where
  text path := path.toText.getD (.ofList ['/', Char.ofNat 65533])
  text_eq path t h := by rw [h, Option.getD_some]

/-- The path `/it's`. -/
theorem helper_carries_quote : ∃ helper,
    RemoteHelperInvocation.sha256 replacedText (helperPeer "user" (by decide))
      ⟨[47, 105, 116, 39, 115]⟩ = .ok helper ∧
    helper.invocation.CarriesPath ⟨[47, 105, 116, 39, 115]⟩ :=
  (helper_carriesPath_iff replacedText (helperPeer "user" (by decide)) _ (by decide)).mpr
    ⟨by decide, by decide⟩

/-- A path that is no UTF-8 is sent as another, and `-v` is an option. -/
theorem helper_carries_other :
    ¬ (∃ helper,
      RemoteHelperInvocation.sha256 replacedText (helperPeer "user" (by decide)) ⟨[47, 255]⟩ =
        .ok helper ∧ helper.invocation.CarriesPath ⟨[47, 255]⟩) ∧
    ¬ (∃ helper,
      RemoteHelperInvocation.sha256 replacedText (helperPeer "-v" (by decide)) ⟨[47, 97]⟩ =
        .ok helper ∧ helper.invocation.CarriesPath ⟨[47, 97]⟩) := by
  constructor
  · rintro ⟨helper, hok, hcarries⟩
    have hbytes := ((carriesPath_iff hok (by decide)).mp hcarries).1
    have htext : PathBuf.toText ⟨[47, 255]⟩ = none := by decide
    rw [osString_text_iff, htext] at hbytes
    cases hbytes
  · rintro ⟨helper, hok, hcarries⟩
    exact ((carriesPath_iff hok (by decide)).mp hcarries).2 (by decide)

end SyncPlus
