import Sift.RuleSet

/-!
# Bundled rules

The rules that come with the program, by subject.
-/

namespace Sift.Bundled

/-- The label of the bundled rules. -/
def label : String := "default"

/-- Rules about cryptography. -/
def cryptography : List RuleRecord := [
  { id := "SK100001"
    name := "Weak/Broken Hash Algorithm"
    description := "A weak or broken hash algorithm was detected. MD5 and SHA-1 are not collision resistant."
    recommendation := "Use a hash function from the SHA-2 or SHA-3 families."
    tags := some ["Cryptography.BannedHashAlgorithm"]
    severity := .critical
    patterns := [some {
        text := "md5|sha1"
        type := "regex-word", modifiers := ["i"], scopes := ["code"] }]
    exclusions := [some { text := "checksum", type := "substring", modifiers := ["i"] }] },
  { id := "SK100002"
    name := "Weak Block Cipher"
    description := "DES, 3DES and RC2 use short keys or blocks and are considered broken."
    recommendation := "Use AES with a 128-bit or longer key."
    tags := some ["Cryptography.BannedCipher"]
    severity := .critical
    patterns := [some {
        text := "DES|TripleDES|DESCryptoServiceProvider|RC2|des\\.NewCipher|des\\.NewTripleDESCipher"
        type := "regex-word", scopes := ["code"] }] },
  { id := "SK100003"
    name := "ECB Cipher Mode"
    description := "Electronic Code Book mode leaks patterns of the plaintext."
    recommendation := "Use an authenticated mode such as GCM."
    tags := some ["Cryptography.WeakCipherMode"]
    severity := .important
    patterns := [some {
        text := "CipherMode\\.ECB|AES/ECB|MODE_ECB"
        type := "regex", scopes := ["code"] }] },
  { id := "SK100004"
    name := "Insecure Random Number Generator"
    description := "A non-cryptographic random number generator was used."
    recommendation := "Use a cryptographically secure generator for security-sensitive values."
    tags := some ["Cryptography.WeakRandom"]
    severity := .manualReview
    appliesTo := ["csharp", "javascript", "typescript", "python", "java"]
    patterns := [some { text := "new Random(", type := "substring", scopes := ["code"] },
      some { text := "Math.random(", type := "substring", scopes := ["code"] },
      some {
        text := "random\\.(random|randint|choice)\\("
        type := "regex", scopes := ["code"] }] }]

/-- Rules about injection. -/
def injection : List RuleRecord := [
  { id := "SK200001"
    name := "Dynamic Code Execution"
    description := "eval executes arbitrary code and is a common injection sink."
    recommendation := "Avoid eval; parse data with a dedicated parser."
    tags := some ["Injection.CodeExecution"]
    severity := .important
    appliesTo := ["javascript", "typescript", "python", "php", "ruby"]
    patterns := [some { text := "eval(", type := "substring", scopes := ["code"] }]
    exclusions := [some { text := "// nosec", type := "substring" },
      some { text := "# nosec", type := "substring" }] },
  { id := "SK200002"
    name := "SQL Query Built From String Concatenation"
    description := "A SQL statement appears to be built by concatenating strings."
    recommendation := "Use parameterised queries."
    tags := some ["Injection.SQL"]
    severity := .important
    patterns := [some {
        text := "\"\\s*(SELECT|INSERT|UPDATE|DELETE)\\b[^\"]*\"\\s*\\+"
        type := "regex", modifiers := ["i"] },
      some {
        text := "(execute|query)\\s*\\(\\s*f[\"']\\s*(SELECT|INSERT|UPDATE|DELETE)\\b"
        type := "regex", modifiers := ["i"], scopes := ["code"] }] },
  { id := "SK200003"
    name := "Shell Command Execution"
    description := "A shell is spawned with a command string that may contain user input."
    recommendation := "Pass arguments as a list and avoid invoking a shell."
    tags := some ["Injection.Command"]
    severity := .moderate
    appliesTo := ["python", "javascript", "typescript", "ruby", "php"]
    patterns := [some { text := "shell\\s*=\\s*True", type := "regex", scopes := ["code"] },
      some {
        text := "os\\.system\\(|child_process\\.exec\\(|shell_exec\\("
        type := "regex", scopes := ["code"] }] },
  { id := "SK200004"
    name := "Unsafe Deserialization"
    description := "Deserializing untrusted data with this API can execute code."
    recommendation := "Use a data-only format such as JSON."
    tags := some ["Injection.Deserialization"]
    severity := .critical
    appliesTo := ["python", "csharp", "java"]
    patterns := [some { text := "pickle.loads", type := "string", scopes := ["code"] },
      some { text := "BinaryFormatter", type := "string", scopes := ["code"] },
      some { text := "ObjectInputStream", type := "string", scopes := ["code"] }] }]

/-- Rules about practices. -/
def practices : List RuleRecord := [
  { id := "SK400001"
    name := "Plain HTTP URL"
    description := "A URL uses plain HTTP."
    recommendation := "Use HTTPS."
    tags := some ["Transport.Cleartext"]
    severity := .bestPractice
    patterns := [some {
        text := "http://(?!localhost|127\\.0\\.0\\.1)[\\w.-]+"
        type := "regex", modifiers := ["i"], scopes := ["code"] }] },
  { id := "SK400002"
    name := "Disabled TLS Certificate Validation"
    description := "Certificate validation is turned off."
    recommendation := "Keep certificate validation enabled and trust the proper roots."
    tags := some ["Transport.CertificateValidation"]
    severity := .critical
    patterns := [some {
        text := "InsecureSkipVerify\\s*:\\s*true"
        type := "regex", scopes := ["code"] },
      some { text := "verify\\s*=\\s*False", type := "regex", scopes := ["code"] },
      some {
        text := "ServerCertificateValidationCallback"
        type := "string", scopes := ["code"] }] },
  { id := "SK400003"
    name := "Security Related TODO"
    description := "A comment notes unfinished security work."
    recommendation := "Resolve the note before release."
    tags := some ["Hygiene.TodoComment"]
    severity := (Severity.union .bestPractice .manualReview)
    patterns := [some {
        text := "(TODO|FIXME|HACK)\\b.*\\b(security|auth|crypto|password|injection)"
        type := "regex", modifiers := ["i"], scopes := ["comment"] }] }]

/-- Rules about secrets. -/
def secrets : List RuleRecord := [
  { id := "SK300001"
    name := "Hard-coded Password"
    description := "A password appears to be assigned from a string literal."
    recommendation := "Load credentials from a secret store or the environment."
    tags := some ["Secrets.HardcodedPassword"]
    severity := .critical
    patterns := [some {
        text := "(password|passwd|pwd)\\s*[:=]\\s*[\"'][^\"']\x7b4,\x7d[\"']"
        type := "regex", modifiers := ["i"] }]
    exclusions := [some {
        text := "(example|changeme|placeholder)"
        type := "regex", modifiers := ["i"] }] },
  { id := "SK300002"
    name := "Private Key Material"
    description := "A PEM encoded private key was found."
    recommendation := "Remove the key and rotate it."
    tags := some ["Secrets.PrivateKey"]
    severity := .critical
    patterns := [some {
        text := "-----BEGIN (RSA |EC |DSA |OPENSSH )?PRIVATE KEY-----"
        type := "regex" }] },
  { id := "SK300003"
    name := "AWS Access Key Identifier"
    description := "A string that looks like an AWS access key id was found."
    recommendation := "Remove the key and rotate it."
    tags := some ["Secrets.CloudCredential"]
    severity := .important
    patterns := [some { text := "(AKIA|ASIA)[0-9A-Z]\x7b16\x7d", type := "regex-word" }] }]

/-- The bundled sources, by name. -/
def sources : List (String × List RuleRecord) :=
  [("cryptography.json", cryptography), ("injection.json", injection),
   ("practices.json", practices), ("secrets.json", secrets)]

/-- Loads the bundled rules into a set. -/
def load (set : RuleSet) : RuleSet × Option LoadFailure :=
  let (set, errors) := sources.foldl
    (fun (set, errors) (name, records) =>
      let (set, found) := set.addRecords records (label ++ ":" ++ name)
      (set, errors ++ found))
    (set, [])
  (set, LoadFailure.ofErrors? errors)

end Sift.Bundled
