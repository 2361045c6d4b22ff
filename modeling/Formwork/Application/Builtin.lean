import Formwork.Files.Tree

/-!
# Built-in documents

The forms and sub-forms that are always there, as the texts of their files.
-/

namespace Formwork.Builtin

/-- A text of lines. -/
def lines (ls : List String) : FileContent := .text (String.join (ls.map (· ++ "\n")))

/-- The form that takes on a customer, with conditions, a group and a popin. -/
def customerOnboarding : FileContent := lines
  ["id: customer-onboarding",
    "title: Customer onboarding",
    "version: \"1.2\"",
    "",
    "blocks:",
    "  - id: identity",
    "    title: Identity",
    "    fields:",
    "      - id: customerType",
    "        type: radio",
    "        label: Customer type",
    "        isDiscriminant: true",
    "        defaultValue: individual",
    "        items:",
    "          - label: Individual",
    "            value: individual",
    "          - label: Company",
    "            value: company",
    "      - id: fullName",
    "        type: text",
    "        label: Full name",
    "        validation:",
    "          - kind: required",
    "            message: Full name is required",
    "          - kind: maxLength",
    "            parameter: 120",
    "            message: At most 120 characters",
    "      - id: companyName",
    "        type: text",
    "        label: Company name",
    "        status:",
    "          hidden: '\x7b\x7bnot (eq customerType \"company\")\x7d\x7d'",
    "      - id: country",
    "        type: dropdown",
    "        label: Country",
    "        isDiscriminant: true",
    "        defaultValue: \"\x7b\x7bcaseContext.country\x7d\x7d\"",
    "        dataSource:",
    "          url: https://api.example.com/countries",
    "          itemsTemplate: '\x7b\"label\": \"\x7b\x7bname\x7d\x7d\",",
    "            \"value\": \"\x7b\x7bcode\x7d\x7d\"\x7d'",
    "        validation:",
    "          - kind: required",
    "            message: Country is required",
    "      - id: email",
    "        type: text",
    "        label: Email",
    "        validation:",
    "          - kind: required",
    "            message: Email is required",
    "          - kind: pattern",
    "            parameter: '^[^@\\s]+@[^@\\s]+\\.[^@\\s]+$'",
    "            message: Invalid email",
    "",
    "  - id: billing-address",
    "    title: Billing address",
    "    subFormRef: address",
    "",
    "  - id: addresses",
    "    title: Other addresses",
    "    repeatable: true",
    "    repeatableBlockRef: address-template",
    "    minInstances: 0",
    "    maxInstances: 5",
    "    status:",
    "      hidden: '\x7b\x7bgte addresses.length 5\x7d\x7d'",
    "",
    "  - id: address-template",
    "    title: Address",
    "    fields:",
    "      - id: street",
    "        type: text",
    "        label: Street",
    "      - id: city",
    "        type: text",
    "        label: City",
    "      - id: zip",
    "        type: text",
    "        label: ZIP code",
    "",
    "  - id: preferences",
    "    title: Preferences",
    "    fields:",
    "      - id: newsletter",
    "        type: checkbox",
    "        label: Subscribe to the newsletter",
    "        defaultValue: \"\x7b\x7bisEmpty email\x7d\x7d\"",
    "      - id: employees",
    "        type: number",
    "        label: Number of employees",
    "        defaultValue: 1",
    "        status:",
    "          hidden: '\x7b\x7bnot (eq customerType \"company\")\x7d\x7d'",
    "        validation:",
    "          - kind: min",
    "            parameter: 1",
    "            message: At least one employee",
    "      - id: addContact",
    "        type: button",
    "        label: Add a contact",
    "        button:",
    "          variant: single",
    "          popinBlockId: contact-popin",
    "",
    "  - id: contact-popin",
    "    title: Contact",
    "    popin: true",
    "    popinSubmit:",
    "      url: https://api.example.com/contacts",
    "      payloadTemplate: '\x7b\"name\": \"\x7b\x7bcontactName\x7d\x7d\",",
    "        \"phone\": \"\x7b\x7bcontactPhone\x7d\x7d\"\x7d'",
    "    fields:",
    "      - id: contactName",
    "        type: text",
    "        label: Name",
    "        validation:",
    "          - kind: required",
    "            message: Name is required",
    "      - id: contactPhone",
    "        type: text",
    "        label: Phone",
    "",
    "submission:",
    "  url: https://api.example.com/customers",
    "  method: POST",
    "  payloadTemplate: '\x7b\"name\": \"\x7b\x7bfullName\x7d\x7d\",",
    "    \"country\": \"\x7b\x7bcountry\x7d\x7d\",",
    "    \"type\": \"\x7b\x7bcustomerType\x7d\x7d\"\x7d'"]

/-- The form that applies for a loan, which uses one sub-form twice. -/
def loanApplication : FileContent := lines
  ["\x7b",
    "  \"id\": \"loan-application\",",
    "  \"title\": \"Loan application\",",
    "  \"version\": \"2.0\",",
    "  \"blocks\": [",
    "    \x7b",
    "      \"id\": \"loan\",",
    "      \"title\": \"Loan\",",
    "      \"fields\": [",
    "        \x7b",
    "          \"id\": \"product\",",
    "          \"type\": \"dropdown\",",
    "          \"label\": \"Product\",",
    "          \"isDiscriminant\": true,",
    "          \"items\": [",
    "            \x7b\"label\": \"Mortgage\", \"value\": \"mortgage\"\x7d,",
    "            \x7b\"label\": \"Personal loan\", \"value\": \"personal\"\x7d",
    "          ],",
    "          \"validation\": [",
    "            \x7b",
    "              \"type\": \"required\",",
    "              \"message\": \"Choose a product\"",
    "            \x7d",
    "          ]",
    "        \x7d,",
    "        \x7b",
    "          \"id\": \"amount\",",
    "          \"type\": \"number\",",
    "          \"label\": \"Amount\",",
    "          \"validation\": [",
    "            \x7b\"type\": \"required\", \"message\": \"Amount is required\"\x7d,",
    "            \x7b",
    "              \"type\": \"min\",",
    "              \"value\": 1000,",
    "              \"message\": \"Minimum amount is 1000\"",
    "            \x7d",
    "          ]",
    "        \x7d,",
    "        \x7b",
    "          \"id\": \"startDate\",",
    "          \"type\": \"date\",",
    "          \"label\": \"Start date\",",
    "          \"validation\": [",
    "            \x7b",
    "              \"type\": \"minDate\",",
    "              \"value\": \"2024-01-01\",",
    "              \"message\": \"Too early\"",
    "            \x7d",
    "          ]",
    "        \x7d",
    "      ]",
    "    \x7d,",
    "    \x7b",
    "      \"id\": \"applicant\",",
    "      \"title\": \"Applicant\",",
    "      \"subFormRef\": \"person\",",
    "      \"subFormInstanceId\": \"applicant\"",
    "    \x7d,",
    "    \x7b",
    "      \"id\": \"co-applicant\",",
    "      \"title\": \"Co-applicant\",",
    "      \"subFormRef\": \"person\",",
    "      \"subFormInstanceId\": \"coapplicant\"",
    "    \x7d",
    "  ],",
    "  \"submission\": \x7b",
    "    \"url\": \"https://api.example.com/loans\",",
    "    \"method\": \"POST\"",
    "  \x7d",
    "\x7d"]

/-- The sub-form of a postal address. -/
def address : FileContent := lines
  ["id: address",
    "title: Postal address",
    "version: \"1.0\"",
    "blocks:",
    "  - id: address-fields",
    "    title: Address",
    "    fields:",
    "      - id: addressLine",
    "        type: text",
    "        label: Address line",
    "        validation:",
    "          - kind: required",
    "            message: Address is required",
    "      - id: postalCode",
    "        type: text",
    "        label: Postal code",
    "        validation:",
    "          - kind: pattern",
    "            parameter: '^[0-9A-Z -]\x7b3,10\x7d$'",
    "            message: Invalid postal code",
    "      - id: city",
    "        type: text",
    "        label: City"]

/-- The sub-form of a person, which uses the one of an address. -/
def person : FileContent := lines
  ["id: person",
    "title: Person",
    "version: \"1.0\"",
    "blocks:",
    "  - id: person-identity",
    "    title: Identity",
    "    fields:",
    "      - id: firstName",
    "        type: text",
    "        label: First name",
    "        validation:",
    "          - kind: required",
    "            message: First name is required",
    "      - id: lastName",
    "        type: text",
    "        label: Last name",
    "        validation:",
    "          - kind: required",
    "            message: Last name is required",
    "      - id: birthDate",
    "        type: date",
    "        label: Birth date",
    "        validation:",
    "          - kind: maxDate",
    "            parameter: \"2008-01-01\"",
    "            message: Applicants must be adults",
    "  - id: person-address",
    "    title: Address",
    "    subFormRef: address"]

/-- Where forms are, below the top of the built-in documents. -/
def formsName : String := "forms"

/-- Where sub-forms are, below the top of the built-in documents. -/
def subFormsName : String := "sub_forms"

/-- The built-in documents below a path. -/
def tree (top : Path) : FileTree :=
  ⟨[(top.append [formsName, "customer-onboarding.yaml"], customerOnboarding),
    (top.append [formsName, "loan-application.json"], loanApplication),
    (top.append [subFormsName, "address.yaml"], address),
    (top.append [subFormsName, "person.yaml"], person)], [], "/"⟩

end Formwork.Builtin
