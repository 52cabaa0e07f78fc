import SyncPlus.Profile

/-!
# Peer scopes

When two peers are the same. The code asks it in two ways. As values,
peers are equal when their fields are, with paths compared component by
component (`Peer.same`). As endpoints, they are equal when they name the
same place: a host with an account and a lexically normalized path,
whatever the peers are called and however they are accessed
(`Peer.sameEndpoint`).
-/

namespace SyncPlus

/-! ## Equal values -/

def sameOptionPath : Option PathBuf → Option PathBuf → Bool
  | none, none => true
  | some p, some q => p.same q
  | _, _ => false

def SshPeer.same (peer other : SshPeer) : Bool :=
  peer.server = other.server && peer.username = other.username && peer.port = other.port &&
    sameOptionPath peer.identity other.identity &&
    peer.authentication = other.authentication && peer.remotePath.same other.remotePath

def PeerEndpoint.same : PeerEndpoint → PeerEndpoint → Bool
  | .local root, .local root' => root.same root'
  | .ssh peer, .ssh peer' => peer.same peer'
  | _, _ => false

def Peer.same (peer other : Peer) : Bool :=
  peer.name = other.name && peer.endpoint.same other.endpoint

@[simp] theorem sameOptionPath_self (p : Option PathBuf) : sameOptionPath p p = true := by
  cases p <;> simp [sameOptionPath]

theorem sameOptionPath_iff {p q : Option PathBuf} :
    sameOptionPath p q = true ↔ p.map PathBuf.components = q.map PathBuf.components := by
  rcases p with _ | p <;> rcases q with _ | q <;> simp [sameOptionPath, PathBuf.same]

/-- What the equality of peers compares. -/
def Peer.key (peer : Peer) :
    String × (List Component ⊕ String × String × UInt16 × Option (List Component) ×
      SshAuthentication × List Component) :=
  (peer.name,
    match peer.endpoint with
    | .local root => .inl root.components
    | .ssh ssh => .inr (ssh.server, ssh.username, ssh.port,
        ssh.identity.map PathBuf.components, ssh.authentication, ssh.remotePath.components))

theorem Peer.same_iff {peer other : Peer} : peer.same other = true ↔ peer.key = other.key := by
  rcases peer with ⟨name, root | ssh⟩ <;> rcases other with ⟨name', root' | ssh'⟩ <;>
    simp [same, key, PeerEndpoint.same, SshPeer.same, PathBuf.same, sameOptionPath_iff,
      and_assoc]

/-! ## Equal endpoints -/

inductive ScopeNamespace where
  | local
  | ssh (server username : String) (port : UInt16)
  deriving DecidableEq

/-- The path is kept as its components, which is what paths compare by. -/
structure PeerScope where
  scope : ScopeNamespace
  path : List Component
  deriving DecidableEq

/-- What one component does to the path normalized so far. -/
def normalizeComponent (normalized : List Component) : Component → List Component
  | .rootDir => [.rootDir]
  | .curDir => normalized
  | .parentDir =>
      if normalized.getLast?.any Component.isNormal then normalized.dropLast else normalized
  | .normal part => normalized ++ [.normal part]

def normalizeRemotePath (path : PathBuf) : List Component :=
  path.components.foldl normalizeComponent []

/-- Relative to the current directory of the process, when it has one. -/
def normalizePath (currentDir : Option PathBuf) (path : PathBuf) : List Component :=
  let absolute :=
    if path.isAbsolute then path
    else
      match currentDir with
      | some directory => directory.join path
      | none => path
  absolute.components.foldl normalizeComponent []

def PeerScope.forPeer (currentDir : Option PathBuf) (peer : Peer) : PeerScope :=
  match peer.endpoint with
  | .local root => ⟨.local, normalizePath currentDir root⟩
  | .ssh ssh => ⟨.ssh ssh.server ssh.username ssh.port, normalizeRemotePath ssh.remotePath⟩

def Peer.sameEndpoint (currentDir : Option PathBuf) (peer other : Peer) : Bool :=
  PeerScope.forPeer currentDir peer = PeerScope.forPeer currentDir other

/-- The endpoints of a profile, which no two profiles may share. -/
def SyncProfile.endpoints (currentDir : Option PathBuf) (profile : SyncProfile) :
    PeerScope × PeerScope :=
  (.forPeer currentDir profile.peerA, .forPeer currentDir profile.peerB)

theorem SyncProfile.endpoints_eq_iff {currentDir : Option PathBuf}
    {profile other : SyncProfile} :
    profile.endpoints currentDir = other.endpoints currentDir ↔
      profile.peerA.sameEndpoint currentDir other.peerA = true ∧
        profile.peerB.sameEndpoint currentDir other.peerB = true := by
  simp [endpoints, Peer.sameEndpoint]

end SyncPlus
