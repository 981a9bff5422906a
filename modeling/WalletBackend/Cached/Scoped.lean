import WalletBackend.Cache.Interface
import WalletBackend.Cache.Steps

/-! The view of a shared cache that a provider gets: every key under a prefix of its
own. A view and a private cache mirror one another as long as their tokens do. -/
namespace WalletBackend.Cached
open Cache Containers

inductive ProviderName where
  | koios
  | blockfrost
  | dingo
  deriving DecidableEq

inductive Network where
  | mainnet
  | preprod
  | preview
  deriving DecidableEq

def ProviderName.text : ProviderName → String
  | .koios => "koios"
  | .blockfrost => "blockfrost"
  | .dingo => "dingo"

def Network.text : Network → String
  | .mainnet => "mainnet"
  | .preprod => "preprod"
  | .preview => "preview"

/-- The fields of the configuration that name a view. -/
structure AppConfig where
  provider : ProviderName
  network : Network
  deriving DecidableEq

/-- The prefix of every key of the view. -/
def AppConfig.start (config : AppConfig) : String :=
  "provider:" ++ config.provider.text ++ ":" ++ config.network.text ++ ":"

/-- The generation is that of the whole cache, whatever the key, and a clear that of the
whole view, whatever the prefix. -/
def scopeProviderCache {S V L : Type} (cache : CacheInterface S V L) (config : AppConfig) :
    CacheInterface S V L where
  read s value policy load id := cache.read s (config.start ++ value) policy load id
  peek s value := cache.peek s (config.start ++ value)
  set s value data ttlMs := cache.set s (config.start ++ value) data ttlMs
  generation s _ := cache.generation s none
  setIfGeneration s value data ttlMs expected :=
    cache.setIfGeneration s (config.start ++ value) data ttlMs expected
  size s := cache.sizeForPrefix s config.start
  sizeForPrefix s nested := cache.sizeForPrefix s (config.start ++ nested)
  clear s _ := cache.clear s (some config.start)

section Keys

theorem startsWith_append (start key : String) : startsWith (start ++ key) start = true := by
  rw [startsWith_iff, String.toList_append]
  exact List.prefix_append ..

/-- Two views concern each other only if they are the same. -/
theorem start_related {config config' : AppConfig} (concerns : related config.start config'.start = true) :
    config = config' := by
  obtain ⟨provider, network⟩ := config
  obtain ⟨provider', network'⟩ := config'
  revert concerns
  cases provider <;> cases network <;> cases provider' <;> cases network' <;> decide

end Keys
end WalletBackend.Cached
