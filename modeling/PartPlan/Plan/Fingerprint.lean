/-
Fingerprints: the content hash of a feature and the key under which a whole
build may be reused. Both are digests of compact JSON texts. A feature's
hash covers its id, explicit dependencies, tags and payload; a cache key
covers the part id, the build order with the hash of each feature, the
backend, and the overrides to six decimal places.
-/
import PartPlan.Digest.Sha256
import PartPlan.Digest.XxHash64
import PartPlan.Feature.Basic
import PartPlan.Json.Printer
import PartPlan.Number.Exact
import PartPlan.Params

namespace PartPlan

/-- The bytes of the compact text of a value. -/
def Json.bytes (v : Json) : List UInt8 := Digest.utf8 v.compact

namespace Feature

/-- What is hashed for a feature. -/
def hashInput (f : Feature) : Json :=
  Json.record [("version", some (.str "feature_hash_v1")), ("feature", some f.toJson)]

/-- The content hash of a feature, sixty-four hexadecimal digits. -/
def hash (f : Feature) : String := Digest.sha256Hex f.hashInput.bytes

end Feature

-- =============================================================== overrides

/-- Overrides that differ by less count as equal: the numbers are taken to
this many parts. -/
def quantum : Float := 1000000

/-- A number as the nearest multiple of one millionth. -/
def quantize (x : Float) : Int := Number.toInt64Saturating (x * quantum)

/-- An id and the hash of the feature with that id. -/
def hashEntry (id hash : String) : Json := .arr [.str id, .str hash]

/-- What is hashed for a cache key. -/
def cacheKeyInput (partId : String) (features : List (String × String)) (backend : String)
    (overrides : Overrides) : Json :=
  Json.record [("version", some (.str "build_cache_v1")), ("part_id", some (.str partId)),
    ("features", some (.arr (features.map fun (id, hash) => hashEntry id hash))),
    ("backend_fingerprint", some (.str backend)),
    ("overrides", some (Json.ofMap (fun x => .int (quantize x)) overrides))]

/-- The ids of an order with their hashes, if every id has one. -/
def orderedHashes? (order : List String) (hashes : SortedMap String) :
    Option (List (String × String)) :=
  order.mapM fun id => (hashes.find? id).map fun hash => (id, hash)

/-- The cache key of a build, sixteen hexadecimal digits, unless an ordered
feature has no hash. -/
def cacheKey? (partId : String) (order : List String) (hashes : SortedMap String)
    (backend : String) (overrides : Overrides) : Option String := do
  let features ← orderedHashes? order hashes
  some (Digest.xxHash64Hex (cacheKeyInput partId features backend overrides).bytes)

end PartPlan
